/-
A loan that is imported with its history, and one that lives through it.

The import keeps the installments at hand, changes them in place and writes the changes.  The live
path reads the rows again before each repayment.  Both allocate a repayment the same way, and what
is at hand is what a reader would find (`run_replayRepayments`), so that the installments come out
the same.  The status of the loan does too, although the import looks only once: a loan whose
installments have all been paid keeps them paid (`allocateInPlace_paid`).
-/
import NexusEfos.Library.StableSort
import NexusEfos.Loans.Closure
import NexusEfos.Loans.Disbursements

namespace NexusEfos

open Proc

/-! ## Installments without their keys -/

/-- An installment but for its key. -/
def InstallmentState.anonymous (st : InstallmentState) : InstallmentState := { st with id := 0 }

/-- The allocation does not look at the keys. -/
theorem allocateInPlace_anonymous (insts : List InstallmentState) (c : ℚ) :
    (allocateInPlace insts c).1.map InstallmentState.anonymous =
      (allocateInPlace (insts.map InstallmentState.anonymous) c).1 := by
  induction insts generalizing c with
  | nil => rfl
  | cons st rest ih =>
    rw [List.map_cons, allocateInPlace, allocateInPlace]
    by_cases hspent : c ≤ 0
    · rw [if_pos hspent, if_pos hspent]
      rfl
    · rw [if_neg hspent, if_neg hspent]
      dsimp only
      simp only [apply_ite Prod.fst, apply_ite (List.map InstallmentState.anonymous), List.map_cons, ih]
      rfl

/-! ## Paid is paid -/

namespace InstallmentState

variable {st : InstallmentState} {interest principal : ℚ}

/-- An installment that is marked as paid misses no more than a cent of either part. -/
def PaidSound (st : InstallmentState) : Prop :=
  st.status = .paid →
    st.interestDue - 1 / 100 ≤ st.interestPaid ∧ st.principalDue - 1 / 100 ≤ st.principalPaid

/-- What is paid in addition does not make less of it. -/
theorem PaidSound.settle (h : st.PaidSound) (hinterest : 0 ≤ interest) (hprincipal : 0 ≤ principal) :
    (st.settle interest principal).PaidSound ∧
      (st.status = .paid → (st.settle interest principal).status = .paid) := by
  unfold InstallmentState.settle
  by_cases hpaid : 0 < interest + principal
  · rw [if_pos hpaid]
    have hreached : (st.pay interest principal).status =
        if st.interestDue - 1 / 100 ≤ st.interestPaid + interest ∧
          st.principalDue - 1 / 100 ≤ st.principalPaid + principal then .paid
        else .partiallyPaid := rfl
    constructor
    · intro hmarked
      rw [hreached] at hmarked
      split at hmarked
      · next hboth => exact hboth
      · exact absurd hmarked (by decide)
    · intro hmarked
      obtain ⟨hi, hp⟩ := h hmarked
      rw [hreached, if_pos ⟨by linarith, by linarith⟩]
  · rw [if_neg hpaid]
    exact ⟨h, fun hmarked => hmarked⟩

end InstallmentState

section Paid

variable {insts : List InstallmentState} {c : ℚ}

theorem allocateInPlace_of_nonpos (hc : c ≤ 0) : (allocateInPlace insts c).1 = insts := by
  cases insts with
  | nil => rfl
  | cons st rest => rw [allocateInPlace, if_pos hc]

theorem allocateInPlace_paidSound (hinsts : ∀ st ∈ insts, st.WholeCents)
    (hsound : ∀ st ∈ insts, st.PaidSound) (hcents : WholeCent c) :
    (∀ st ∈ (allocateInPlace insts c).1, st.PaidSound) ∧
      ((∀ st ∈ insts, st.status = .paid) →
        ∀ st ∈ (allocateInPlace insts c).1, st.status = .paid) := by
  rcases le_or_gt c 0 with hspent | hc
  · rw [allocateInPlace_of_nonpos hspent]
    exact ⟨hsound, id⟩
  revert hsound
  apply allocateInPlace_induction (P := fun insts c => (∀ st ∈ insts, st.PaidSound) →
    (∀ st ∈ (allocateInPlace insts c).1, st.PaidSound) ∧
      ((∀ st ∈ insts, st.status = .paid) →
        ∀ st ∈ (allocateInPlace insts c).1, st.status = .paid)) _ _ hinsts hc.le hcents
  · exact fun _ _ h => ⟨h, id⟩
  · intro st rest c interest principal hc hinterest hprincipal hleft heq ih hsound
    have hi : 0 ≤ interest := hinterest ▸ le_min hc (le_max_left ..)
    have hp : 0 ≤ principal := by
      rw [hprincipal]
      refine le_min (sub_nonneg.mpr ?_) (le_max_left ..)
      exact hinterest ▸ min_le_left ..
    rw [List.forall_mem_cons] at hsound
    obtain ⟨hfirst, hkept⟩ := hsound.1.settle hi hp
    obtain ⟨hrest, hkeptRest⟩ := ih hsound.2
    rw [heq, List.forall_mem_cons, List.forall_mem_cons, List.forall_mem_cons]
    exact ⟨⟨hfirst, hrest⟩, fun hmarked => ⟨hkept hmarked.1, hkeptRest hmarked.2⟩⟩

end Paid

/-! ## How far a loan has come -/

structure InstallmentProgress where
  installmentNumber : ℕ
  principalPaid : Cents
  interestPaid : Cents
  status : InstallmentStatus
  deriving DecidableEq

/-- How far a loan has come: what is paid on each installment, and the status of the loan. -/
@[ext]
structure LoanProgress where
  installments : List InstallmentProgress
  status : Option LoanStatus
  deriving DecidableEq

namespace Db

def progressOf (s : Db) (loanId : Id) : LoanProgress where
  installments := (s.installmentsOf loanId).map fun e =>
    ⟨e.2.installmentNumber, e.2.principalPaid, e.2.interestPaid, e.2.status⟩
  status := (s.find? .loan loanId).map Loan.status

/-- The installments of a loan by their numbers, without their keys. -/
def numberedStates (s : Db) (loanId : Id) : List (ℕ × InstallmentState) :=
  (s.installmentsOf loanId).map fun e => (e.2.installmentNumber, (installmentState e).anonymous)

variable {s t : Db} {loanId loanId' : Id}

theorem numberedStates_eq_zip (s : Db) (loanId : Id) :
    s.numberedStates loanId =
      ((s.installmentsOf loanId).map fun e => e.2.installmentNumber).zip
        ((s.installmentStates loanId).map InstallmentState.anonymous) := by
  rw [installmentStates, List.map_map, List.zip_map']
  rfl

/-- A repayment makes the same of what is the same but for the keys. -/
theorem numberedStates_repay (h : s.numberedStates loanId = t.numberedStates loanId') (x : ℚ)
    (recordedById recordedById' : Id) :
    (s.repay loanId x recordedById).numberedStates loanId =
      (t.repay loanId' x recordedById').numberedStates loanId' := by
  have hnumbers : ∀ (s : Db) (loanId recordedById : Id),
      ((s.repay loanId x recordedById).installmentsOf loanId).map
          (fun e => e.2.installmentNumber) =
        (s.numberedStates loanId).map Prod.fst := by
    intro s loanId recordedById
    rw [installmentsOf_repay, numberedStates, List.map_map, List.map_map]
    apply List.map_congr_left
    intro e _
    exact (applyUpdates_keeps _ e.1 e.2).2
  have hstates : ∀ (s : Db) (loanId recordedById : Id),
      ((s.repay loanId x recordedById).installmentStates loanId).map InstallmentState.anonymous =
        (allocateInPlace ((s.numberedStates loanId).map Prod.snd) x).1 := by
    intro s loanId recordedById
    rw [installmentStates_repay, allocateInPlace_anonymous, installmentStates, numberedStates,
      List.map_map, List.map_map]
    rfl
  rw [numberedStates_eq_zip, numberedStates_eq_zip, hnumbers, hnumbers, hstates, hstates, h]

theorem progressOf_installments (s : Db) (loanId : Id) :
    (s.progressOf loanId).installments = (s.numberedStates loanId).map fun p =>
      ⟨p.1, ofNumber p.2.principalPaid, ofNumber p.2.interestPaid, p.2.status⟩ := by
  rw [numberedStates, List.map_map, progressOf]
  apply List.map_congr_left
  intro e _
  show (⟨_, _, _, _⟩ : InstallmentProgress) =
    ⟨_, ofNumber (toNumber e.2.principalPaid), ofNumber (toNumber e.2.interestPaid), _⟩
  rw [ofNumber_toNumber, ofNumber_toNumber]
  rfl

theorem allPaid_iff_numberedStates : s.allPaid loanId = true ↔
    s.numberedStates loanId ≠ [] ∧ ∀ p ∈ s.numberedStates loanId, p.2.status = .paid := by
  rw [allPaid_iff, numberedStates, List.forall_mem_map, ne_eq, ne_eq, List.map_eq_nil_iff]
  rfl

theorem allPaid_congr (h : s.numberedStates loanId = t.numberedStates loanId') :
    s.allPaid loanId = t.allPaid loanId' := by
  rw [Bool.eq_iff_iff, allPaid_iff_numberedStates, allPaid_iff_numberedStates, h]

/-- Each installment that is marked as paid is. -/
def PaidSound (s : Db) (loanId : Id) : Prop := ∀ st ∈ s.installmentStates loanId, st.PaidSound

/-- A loan whose installments are all paid keeps them paid. -/
theorem PaidSound.repay (h : s.PaidSound loanId) {x : ℚ} (hcents : WholeCent x) (recordedById : Id) :
    (s.repay loanId x recordedById).PaidSound loanId ∧
      (s.allPaid loanId = true → (s.repay loanId x recordedById).allPaid loanId = true) := by
  have hwhole := wholeCents_installmentStates s loanId
  obtain ⟨hsound, hkept⟩ := allocateInPlace_paidSound hwhole h hcents
  constructor
  · unfold PaidSound
    rwa [installmentStates_repay]
  · rw [allPaid_iff, allPaid_iff, installmentsOf_repay]
    rintro ⟨hsome, hpaid⟩
    refine ⟨fun hnone => hsome (List.map_eq_nil_iff.mp hnone), ?_⟩
    have hmarked : ∀ st ∈ s.installmentStates loanId, st.status = .paid := by
      rw [installmentStates, List.forall_mem_map]
      exact hpaid
    have hlater := hkept hmarked
    rw [← installmentStates_repay s loanId x recordedById, installmentStates,
      installmentsOf_repay, List.forall_mem_map] at hlater
    exact hlater

end Db

/-! ## Repayments as they come in -/

namespace Db

variable {s t : Db} {loanId loanId' recordedById recordedById' : Id} {xs : List ℚ}

/-- What repayments make of the installments, without the status of the loan. -/
def repayEach (s : Db) (loanId : Id) (xs : List ℚ) (recordedById : Id) : Db :=
  xs.foldl (fun s x => s.repay loanId x recordedById) s

/-- What they make of the loan. -/
def repayLoanEach (s : Db) (loanId : Id) (xs : List ℚ) (recordedById : Id) : Db :=
  xs.foldl (fun s x => s.repayLoan loanId x recordedById) s

theorem numberedStates_repayLoan (s : Db) (loanId : Id) (x : ℚ) (recordedById : Id) :
    (s.repayLoan loanId x recordedById).numberedStates loanId =
      (s.repay loanId x recordedById).numberedStates loanId := by
  rw [numberedStates, installmentsOf_repayLoan, numberedStates]

theorem numberedStates_repayLoanEach (h : s.numberedStates loanId = t.numberedStates loanId') :
    (s.repayLoanEach loanId xs recordedById).numberedStates loanId =
      (t.repayEach loanId' xs recordedById').numberedStates loanId' := by
  induction xs generalizing s t with
  | nil => exact h
  | cons x xs ih =>
    apply ih
    rw [numberedStates_repayLoan]
    exact numberedStates_repay h x recordedById recordedById'

theorem PaidSound.repayLoan (h : s.PaidSound loanId) {x : ℚ} (hcents : WholeCent x)
    (recordedById : Id) : (s.repayLoan loanId x recordedById).PaidSound loanId := by
  unfold PaidSound installmentStates
  rw [installmentsOf_repayLoan]
  exact (h.repay hcents recordedById).1

theorem allPaid_repayLoan (s : Db) (loanId : Id) (x : ℚ) (recordedById : Id) :
    (s.repayLoan loanId x recordedById).allPaid loanId =
      (s.repay loanId x recordedById).allPaid loanId :=
  allPaid_congr (numberedStates_repayLoan s loanId x recordedById)

/-- After some repayments the loan is closed exactly if its installments are paid, and active
otherwise. -/
theorem status_repayLoanEach (hxs : ∀ x ∈ xs, WholeCent x) (hsound : s.PaidSound loanId)
    {loan : Loan} (hloan : s.find? .loan loanId = some loan)
    (hstatus : loan.status = .disbursed ∨ loan.status = .active ∨
      loan.status = .closed ∧ s.allPaid loanId = true) :
    ((s.repayLoanEach loanId xs recordedById).find? .loan loanId).map Loan.status = some
      (if xs = [] then loan.status
        else if (s.repayLoanEach loanId xs recordedById).allPaid loanId = true then .closed
        else .active) := by
  induction xs generalizing s loan with
  | nil =>
    rw [if_pos rfl, repayLoanEach, List.foldl_nil, hloan]
    rfl
  | cons x xs ih =>
    rw [List.forall_mem_cons] at hxs
    obtain ⟨-, hkept⟩ := hsound.repay hxs.1 recordedById
    have hfound := find?_repayLoan hloan x recordedById
    -- What the first repayment makes of the status.
    have hfirst : (s.repay loanId x recordedById).statusAfter loanId loan.status =
        if (s.repayLoan loanId x recordedById).allPaid loanId = true then .closed else .active := by
      rw [statusAfter, allPaid_repayLoan]
      by_cases hall : (s.repay loanId x recordedById).allPaid loanId = true
      · rw [if_pos hall, if_pos hall]
      · rw [if_neg hall, if_neg hall]
        rcases hstatus with h | h | ⟨-, h⟩
        · rw [if_pos h]
        · rw [if_neg (by rw [h]; decide), h]
        · exact absurd (hkept h) hall
    rw [hfirst] at hfound
    have hrest := ih hxs.2 (hsound.repayLoan hxs.1 recordedById) hfound (by
      by_cases hall : (s.repayLoan loanId x recordedById).allPaid loanId = true
      · exact .inr (.inr ⟨if_pos hall, hall⟩)
      · exact .inr (.inl (if_neg hall)))
    have hcons : s.repayLoanEach loanId (x :: xs) recordedById =
        (s.repayLoan loanId x recordedById).repayLoanEach loanId xs recordedById := rfl
    rw [hcons, hrest, if_neg (List.cons_ne_nil x xs)]
    by_cases hlast : xs = []
    · rw [if_pos hlast, hlast]
      rfl
    · rw [if_neg hlast]

end Db

/-- The repayments succeed, as the loan is there. -/
theorem runAll_applyLoanRepaymentInTx_eq {s : Db} {loanId : Id}
    (hloan : (s.find? .loan loanId).isSome) (xs : List ℚ) (recordedById : Id) :
    Proc.runAll (xs.map fun x => applyLoanRepaymentInTx loanId x recordedById) s =
      s.repayLoanEach loanId xs recordedById := by
  induction xs generalizing s with
  | nil => rfl
  | cons x xs ih =>
    obtain ⟨loan, hloan'⟩ := Option.isSome_iff_exists.mp hloan
    have hfound := Db.find?_repayLoan hloan' x recordedById
    rw [List.map_cons, Proc.runAll_cons, run_applyLoanRepaymentInTx hloan',
      ih (Option.isSome_iff_exists.mpr ⟨_, hfound⟩)]
    rfl

/-! ## New schedules -/

namespace Db

theorem entries_insertAll {m : Model} (s : Db) (rows : List (Row m)) :
    ∃ new, ((s.insertAll m rows).table m).entries = (s.table m).entries ++ new ∧
      new.map Prod.snd = rows := by
  induction rows generalizing s with
  | nil => exact ⟨[], (List.append_nil _).symm, rfl⟩
  | cons row rows ih =>
    obtain ⟨new, hentries, hrows⟩ := ih (s.insert m row)
    have hfirst : ((s.insert m row).table m).entries =
        (s.table m).entries ++ [(s.nextId m, row)] := by
      rw [table_insert_self]
      rfl
    refine ⟨(s.nextId m, row) :: new, ?_, by rw [List.map_cons, hrows]⟩
    rw [hfirst, List.append_assoc] at hentries
    exact hentries

/-- The rows that are added to a loan that has none are its installments. -/
theorem installmentsOf_insertAll {s : Db} {loanId : Id} (hnone : s.installmentsOf loanId = [])
    {rows : List LoanInstallment} (hloan : ∀ i ∈ rows, i.loanId = loanId)
    (hsorted : rows.Pairwise fun i j => i.installmentNumber ≤ j.installmentNumber)
    {new : List (Id × LoanInstallment)} {t : Db}
    (hentries : (t.table .loanInstallment).entries = (s.table .loanInstallment).entries ++ new)
    (hrows : new.map Prod.snd = rows) : t.installmentsOf loanId = new := by
  have hbefore : (s.table .loanInstallment).entries.filter (fun i => i.2.loanId = loanId) = [] := by
    have hperm := List.perm_insertionSort
      (fun i j : Id × LoanInstallment => i.2.installmentNumber ≤ j.2.installmentNumber)
      ((s.table .loanInstallment).entries.filter fun i => i.2.loanId = loanId)
    rw [← installmentsOf, hnone] at hperm
    exact hperm.nil_eq.symm
  have hnew : new.filter (fun i => i.2.loanId = loanId) = new := by
    apply List.filter_eq_self.mpr
    intro e he
    exact decide_eq_true (hloan e.2 (hrows ▸ List.mem_map_of_mem he))
  rw [installmentsOf, hentries, List.filter_append, hbefore, List.nil_append, hnew]
  apply List.Pairwise.insertionSort_eq
  rw [← hrows, List.pairwise_map] at hsorted
  exact hsorted

/-- A new schedule by its rows. -/
theorem NewlyScheduled.numberedStates {s : Db} {loanId : Id} {rows : List ScheduleRow}
    (h : s.NewlyScheduled loanId rows) :
    s.numberedStates loanId =
      rows.map fun row => (row.installmentNumber, installmentState (0, row.installment 0)) := by
  have hrows : s.numberedStates loanId = ((s.installmentsOf loanId).map Prod.snd).map fun i =>
      (i.installmentNumber, installmentState (0, i)) := by
    rw [Db.numberedStates, List.map_map]
    rfl
  rw [hrows, h.installments, List.map_map]
  rfl

/-- Nothing on it is marked as paid. -/
theorem NewlyScheduled.pending {s : Db} {loanId : Id} {rows : List ScheduleRow}
    (h : s.NewlyScheduled loanId rows) : ∀ e ∈ s.installmentsOf loanId, e.2.status = .pending := by
  intro e he
  have hrow : e.2 ∈ rows.map (ScheduleRow.installment loanId) := by
    rw [← h.installments]
    exact List.mem_map_of_mem he
  obtain ⟨row, -, hinstallment⟩ := List.mem_map.mp hrow
  rw [← hinstallment]
  rfl

theorem NewlyScheduled.paidSound {s : Db} {loanId : Id} {rows : List ScheduleRow}
    (h : s.NewlyScheduled loanId rows) : s.PaidSound loanId := by
  intro st hst hpaid
  obtain ⟨e, he, rfl⟩ := List.mem_map.mp hst
  have hpending : (installmentState e).status = .pending := h.pending e he
  rw [hpending] at hpaid
  exact absurd hpaid (by decide)

theorem NewlyScheduled.not_allPaid {s : Db} {loanId : Id} {rows : List ScheduleRow}
    (h : s.NewlyScheduled loanId rows) : ¬ s.allPaid loanId = true := by
  rw [allPaid_iff]
  rintro ⟨hsome, hpaid⟩
  obtain ⟨e, he⟩ := List.exists_mem_of_ne_nil _ hsome
  have hmarked := hpaid e he
  rw [h.pending e he] at hmarked
  exact absurd hmarked (by decide)

end Db

theorem pairwise_generateSchedule (principal rate : ℚ) (termMonths : ℕ) (method : String)
    (startDate : DateTime) (loanId : Id) :
    ((generateSchedule principal rate termMonths method startDate).map
      (ScheduleRow.installment loanId)).Pairwise fun i j =>
        i.installmentNumber ≤ j.installmentNumber := by
  have hnumbers := installmentNumber_generateSchedule principal rate termMonths method startDate
  have hsorted : (List.range' 1 termMonths).Pairwise (· ≤ ·) :=
    (List.pairwise_lt_range').imp le_of_lt
  rw [← hnumbers, List.pairwise_map] at hsorted
  rw [List.pairwise_map]
  exact hsorted

/-! ## A disbursement -/

/-- What comes after a step that leaves the watched tables alone. -/
theorem Quiet.run_bind_eq_ok {α β : Type} {watched : List Model} {p : Handler β}
    {k : β → Handler α} {s s' : Db} {a : α} (hp : Quiet watched p)
    (h : (p >>= k).run s = (.ok a, s')) :
    ∃ b t, s.Agree watched t ∧ (k b).run t = (.ok a, s') := by
  obtain ⟨b, t, hfirst, hrest⟩ := Proc.run_bind_eq_ok h
  have hagree := hp.run s
  rw [hfirst] at hagree
  exact ⟨b, t, hagree, hrest⟩

section Disbursed

variable {js : Js} {auth : Auth} {now : DateTime} {loanId : Id} {vaultId : Option Id}
  {s s' : Db} {loan updated : Loan}

/-- A disbursement that succeeds adds the schedule of the loan to its installments. -/
theorem run_disburseLoan_eq_ok (hloan : s.find? .loan loanId = some loan)
    (h : (disburseLoan js auth now loanId vaultId).run s = (.ok updated, s')) :
    s'.find? .loan loanId = some { loan with status := .disbursed, disbursedAt := some now } ∧
      ∃ new, (s'.table .loanInstallment).entries = (s.table .loanInstallment).entries ++ new ∧
        new.map Prod.snd =
          (generateSchedule (toNumber loan.principal) loan.interestRate loan.termMonths
            loan.interestMethod now).map (ScheduleRow.installment loanId) := by
  obtain ⟨vaultId', -, h⟩ := run_orFail_bind_eq_ok h
  obtain ⟨loan', hfound, h⟩ := run_orFail_bind_eq_ok (run_query_bind h)
  have hsame : loan' = loan := by
    rw [hloan, Option.filter_eq_some_iff] at hfound
    exact (Option.some.inj hfound.1).symm
  subst hsame
  obtain ⟨-, h⟩ := run_require_bind_eq_ok h
  obtain ⟨vault, -, h⟩ := run_orFail_bind_eq_ok (run_query_bind h)
  obtain ⟨-, h⟩ := run_require_bind_eq_ok h
  obtain ⟨-, h⟩ := run_require_bind_eq_ok (run_query_bind h)
  have h := run_query_bind h
  obtain ⟨matched, s₁, hmatched, h⟩ :=
    (Quiet.matchRules js now _ _ _ : Quiet [.loan, .loanInstallment] _).run_bind_eq_ok h
  obtain ⟨-, s₂, hblocked, h⟩ :=
    (Quiet.requireUnblocked _ matched : Quiet [.loan, .loanInstallment] _).run_bind_eq_ok h
  obtain ⟨accounts, -, h⟩ := run_orFail_bind_eq_ok (run_query_bind h)
  obtain ⟨-, s₃, hperiod, h⟩ :=
    (Quiet.requirePostablePeriod _ _ : Quiet [.loan, .loanInstallment] _).run_bind_eq_ok h
  obtain ⟨receivable, -, h⟩ := run_findUniqueOrThrow_bind_eq_ok h
  obtain ⟨cash, -, h⟩ := run_findUniqueOrThrow_bind_eq_ok h
  obtain ⟨-, h⟩ := run_require_bind_eq_ok h
  have hbefore := (hmatched.trans hblocked).trans hperiod
  obtain ⟨d, hd⟩ : ∃ d : Disbursement, d = ⟨auth, now, loanId, vaultId', loan'.principal,
    doubleEntry (accounts.1, receivable) (accounts.2, cash) (toNumber loan'.principal),
    generateSchedule (toNumber loan'.principal) loan'.interestRate loan'.termMonths
      loan'.interestMethod now⟩ := ⟨_, rfl⟩
  obtain ⟨paid, s₄, htransaction, h⟩ := Proc.run_bind_eq_ok h
  have hpaid : d.inTx.run s₃ = (.ok paid, s₄) := by
    rw [hd]
    exact Proc.run_transaction_eq_ok htransaction
  obtain ⟨-, -, -, -, hs₄⟩ := Disbursement.run_inTx_eq_ok hpaid
  obtain ⟨-, s₅, haudit, h⟩ :=
    (Quiet.create (by decide) _ : Quiet [.loan, .loanInstallment] _).run_bind_eq_ok h
  obtain ⟨-, s₆, hrules, h⟩ := (Quiet.executeMatchedRules (by decide) (by decide) _ _ _ _ _ :
    Quiet [.loan, .loanInstallment] _).run_bind_eq_ok h
  have hs' : s' = s₆ := (Prod.mk.inj h).2.symm
  have hafter := haudit.trans hrules
  constructor
  · have hloan₃ : (d.payOut s₃).find? .loan loanId = some loan' := by
      have hpayOut : s₃.Agree [.loan] (d.payOut s₃) := .payOut (by decide) d s₃
      rw [hpayOut.find? (by decide), hbefore.find? (by decide), hloan]
    rw [hs', hafter.find? (by decide), hs₄, hd, Db.find?_modify, if_pos rfl, ← hd, hloan₃, hd]
    rfl
  · obtain ⟨new, hentries, hrows⟩ := Db.entries_insertAll (m := .loanInstallment)
      (d.post (d.pay s₃)) (d.schedule.map (ScheduleRow.installment d.loanId))
    refine ⟨new, ?_, ?_⟩
    · have hpost : (d.post (d.pay s₃)).table .loanInstallment = s₃.table .loanInstallment := by
        rw [Disbursement.post, Db.table_applyEffects (by decide), Db.table_insert_of_ne (by decide),
          Disbursement.pay, Db.table_insert_of_ne (by decide), Db.table_modify_of_ne (by decide)]
      rw [hs', hafter _ (by decide), hs₄, Db.table_modify_of_ne (by decide), Disbursement.payOut,
        hentries, hpost, hbefore _ (by decide)]
    · rw [hrows, hd]

end Disbursed

/-! ## An import -/

/-- The amount that is replayed, and that a teller would have taken. -/
def RepaymentRow.amountTaken (rep : RepaymentRow) : ℚ := round2 (rep.amount.getD 0)

/-- An installment refers to a loan that is there. -/
def Db.InstallmentsHaveLoans (s : Db) : Prop :=
  ∀ id i, s.find? .loanInstallment id = some i → (s.find? .loan i.loanId).isSome

section Imported

variable {auth : Auth} {loanId : Id}

theorem foldl_map_applyInPlace (us : List AllocationUpdate) (insts : List InstallmentState) :
    us.foldl (fun states u => states.map u.applyInPlace) insts =
      insts.map fun st => us.foldl (fun st u => u.applyInPlace st) st := by
  induction us generalizing insts with
  | nil => exact (List.map_id _).symm
  | cons u us ih =>
    rw [List.foldl_cons, ih, List.map_map]
    rfl

/-- The installments at hand are those that a reader would find. -/
theorem run_replayRepayments (auth : Auth) (loanId : Id) (reps : List RepaymentRow) (s : Db) :
    let t := s.repayEach loanId (reps.map RepaymentRow.amountTaken) auth.userId
    (replayRepayments auth loanId reps (s.installmentStates loanId)).run s =
      (.ok (t.installmentStates loanId), t) := by
  induction reps generalizing s with
  | nil => rfl
  | cons rep reps ih =>
    obtain ⟨x, hx⟩ : ∃ x, x = rep.amountTaken := ⟨_, rfl⟩
    have hrows : ∀ u ∈ allocateRepayment (s.installmentStates loanId) x,
        ((s.insert .loanRepayment
            { loanId, amount := ofNumber x, recordedById := some auth.userId }).find?
          .loanInstallment u.id).isSome := by
      intro u hu
      obtain ⟨st, hst, hid⟩ := mem_allocateRepayment hu
      obtain ⟨e, he, rfl⟩ := List.mem_map.mp hst
      rw [Db.find?_insert_of_ne (by decide), ← hid]
      exact Option.isSome_iff_exists.mpr ⟨e.2, (Db.mem_installmentsOf.mp he).1⟩
    have hhand : (allocateRepayment (s.installmentStates loanId) x).foldl
        (fun states u => states.map u.applyInPlace) (s.installmentStates loanId) =
          (s.repay loanId x auth.userId).installmentStates loanId := by
      rw [foldl_map_applyInPlace, ← allocateInPlace_fst (Db.nodup_installmentStates s loanId),
        Db.installmentStates_repay]
    have hrest := ih (s.repay loanId x auth.userId)
    rw [← hhand] at hrest
    rw [hx] at hrows hrest
    intro t
    show (create .loanRepayment _ >>= _).run s = _
    rw [Proc.run_bind_ok (run_create ..)]
    exact (Proc.run_bind_ok (run_forEach_update hrows) _).trans hrest

/-- The installments are added in the order of the schedule. -/
theorem run_createEach (loanId : Id) (rows : List ScheduleRow) (s : Db) :
    ∃ new, (Proc.mapEach rows fun row => (do
        let id ← create .loanInstallment (row.installment loanId)
        return (id, row.installment loanId) : Handler (Id × LoanInstallment))).run s =
          (.ok new, s.insertAll .loanInstallment (rows.map (ScheduleRow.installment loanId))) ∧
      ((s.insertAll .loanInstallment (rows.map (ScheduleRow.installment loanId))).table
          .loanInstallment).entries = (s.table .loanInstallment).entries ++ new ∧
      new.map Prod.snd = rows.map (ScheduleRow.installment loanId) := by
  induction rows generalizing s with
  | nil => exact ⟨[], rfl, (List.append_nil _).symm, rfl⟩
  | cons row rows ih =>
    obtain ⟨new, hrun, hentries, hrows⟩ := ih (s.insert .loanInstallment (row.installment loanId))
    have hfirst : ((s.insert .loanInstallment (row.installment loanId)).table
        .loanInstallment).entries = (s.table .loanInstallment).entries ++
          [(s.nextId .loanInstallment, row.installment loanId)] := by
      rw [Db.table_insert_self]
      rfl
    refine ⟨(s.nextId .loanInstallment, row.installment loanId) :: new, ?_, ?_, ?_⟩
    · rw [Proc.mapEach, Proc.bind_assoc, Proc.run_bind_ok (run_create ..)]
      exact Proc.run_bind_ok hrun _
    · rw [hfirst, List.append_assoc] at hentries
      exact hentries
    · rw [List.map_cons, hrows, List.map_cons]

theorem Db.find?_repayEach_loan (s : Db) (loanId : Id) (xs : List ℚ) (recordedById id : Id) :
    (s.repayEach loanId xs recordedById).find? .loan id = s.find? .loan id := by
  induction xs generalizing s with
  | nil => rfl
  | cons x xs ih =>
    have hrest := ih (s.repay loanId x recordedById)
    rw [Db.find?_repay_loan] at hrest
    exact hrest

/-- The last statement of an import writes the status, if it is not what it was. -/
theorem run_writeStatus {s : Db} {loan : Loan} (hloan : s.find? .loan loanId = some loan)
    (hdisbursed : loan.status = .disbursed) (allPaid : Bool) (reps : List RepaymentRow) :
    (if allPaid = true then (do
        let _ ← update .loan loanId fun l => { l with status := .closed })
      else if reps ≠ [] then (do
        let _ ← update .loan loanId fun l => { l with status := .active })
      else return () : Handler Unit).run s =
      (.ok (), s.modify .loan loanId fun l =>
        { l with status :=
            if allPaid = true then .closed else if reps = [] then .disbursed else .active }) := by
  have hwrite : ∀ f : Loan → Loan, (update .loan loanId f).run s =
      (.ok (f loan), s.modify .loan loanId f) := by
    intro f
    rw [run_update, hloan]
  by_cases hall : allPaid = true
  · simp only [if_pos hall]
    exact Proc.run_bind_ok (hwrite _) _
  · by_cases hnone : reps = []
    · simp only [if_neg hall, if_neg (not_not.mpr hnone), if_pos hnone]
      rw [Db.modify_eq_self]
      · rfl
      · intro row hrow
        rw [← Option.some.inj (hloan.symm.trans hrow), ← hdisbursed]
    · simp only [if_neg hall, if_pos hnone, if_neg hnone]
      exact Proc.run_bind_ok (hwrite _) _

/-- An import lays down the schedule, replays the repayments, and looks once what has become of the
installments. -/
theorem run_importFullHistory (auth : Auth) (h : LoanHeaderRow) (repayments : List RepaymentRow)
    (customerId : Id) {s : Db} (hs : s.InstallmentsHaveLoans) :
    ∃ t s' : Db, t.NewlyScheduled (s.nextId .loan) h.schedule ∧
      (importFullHistory auth repayments h customerId).run s = (.ok (), s') ∧
      s'.progressOf (s.nextId .loan) =
        let reps := h.repaymentsForLoan repayments
        let t' := t.repayEach (s.nextId .loan) (reps.map RepaymentRow.amountTaken) auth.userId
        { installments := (t'.progressOf (s.nextId .loan)).installments,
          status := some (if t'.allPaid (s.nextId .loan) = true then .closed
            else if reps = [] then .disbursed else .active) } := by
  obtain ⟨loanId, hloanId⟩ : ∃ loanId, loanId = s.nextId .loan := ⟨_, rfl⟩
  obtain ⟨reps, hreps⟩ : ∃ reps, reps = h.repaymentsForLoan repayments := ⟨_, rfl⟩
  obtain ⟨s₁, hs₁⟩ : ∃ s₁, s₁ = s.insert .loan (h.loan auth.institutionId customerId) := ⟨_, rfl⟩
  obtain ⟨new, hrun, hentries, hrows⟩ := run_createEach loanId h.schedule s₁
  obtain ⟨t, ht⟩ : ∃ t, t = s₁.insertAll .loanInstallment
    (h.schedule.map (ScheduleRow.installment loanId)) := ⟨_, rfl⟩
  rw [← ht] at hrun hentries
  have hnone : s₁.installmentsOf loanId = [] := by
    apply List.eq_nil_iff_forall_not_mem.mpr
    intro e he
    obtain ⟨hfind, hloan⟩ := Db.mem_installmentsOf.mp he
    rw [hs₁, Db.find?_insert_of_ne (by decide)] at hfind
    have hthere := hs e.1 e.2 hfind
    rw [hloan, hloanId, Db.find?, Db.nextId, OrderedMap.get?_nextKey] at hthere
    exact absurd hthere (by decide)
  have hnew : t.installmentsOf loanId = new := by
    refine Db.installmentsOf_insertAll hnone ?_ (pairwise_generateSchedule _ _ _ _ _ loanId) hentries
      hrows
    intro i hi
    obtain ⟨row, -, rfl⟩ := List.mem_map.mp hi
    rfl
  have hloan : t.find? .loan loanId = some (h.loan auth.institutionId customerId) := by
    rw [ht, Db.find?, Db.table_insertAll (by decide), hs₁, hloanId]
    exact (Db.find?_insert ..).trans (if_pos rfl)
  have hscheduled : t.NewlyScheduled loanId h.schedule :=
    ⟨Option.isSome_iff_exists.mpr ⟨_, hloan⟩, by rw [hnew, hrows]⟩
  have hstates : new.map installmentState = t.installmentStates loanId := by
    rw [Db.installmentStates, hnew]
  have hreplay := run_replayRepayments auth loanId reps t
  obtain ⟨t', ht'⟩ : ∃ t', t' = t.repayEach loanId (reps.map RepaymentRow.amountTaken)
    auth.userId := ⟨_, rfl⟩
  dsimp only at hreplay
  rw [← ht'] at hreplay
  have hloan' : t'.find? .loan loanId = some (h.loan auth.institutionId customerId) := by
    rw [ht', Db.find?_repayEach_loan, hloan]
  have hallPaid : (!(t'.installmentStates loanId).isEmpty &&
      (t'.installmentStates loanId).all fun i => i.status = .paid) = t'.allPaid loanId := by
    rw [Bool.eq_iff_iff, Db.allPaid_iff, Bool.and_eq_true, Bool.not_eq_true',
      List.isEmpty_eq_false_iff, List.all_eq_true, Db.installmentStates, List.forall_mem_map, ne_eq,
      List.map_eq_nil_iff]
    simp only [decide_eq_true_eq]
    rfl
  obtain ⟨status, hstatus⟩ : ∃ status : LoanStatus, status =
    (if t'.allPaid loanId = true then .closed else if reps = [] then .disbursed else .active) :=
    ⟨_, rfl⟩
  have hlast := run_writeStatus hloan' rfl (t'.allPaid loanId) reps
  rw [← hstatus] at hlast
  refine ⟨t, t'.modify .loan loanId fun l => { l with status }, hloanId ▸ hscheduled, ?_, ?_⟩
  · have hbody : (importFullHistoryInTx auth h reps customerId).run s =
        (.ok (), t'.modify .loan loanId fun l => { l with status }) := by
      rw [importFullHistoryInTx, Proc.run_bind_ok (run_create ..), ← hloanId, ← hs₁,
        Proc.run_bind_ok hrun, hstates, Proc.run_bind_ok hreplay]
      dsimp only
      rw [hallPaid]
      exact hlast
    rw [importFullHistory, Proc.run_transaction, ← hreps, hbody]
  · rw [← hloanId]
    dsimp only
    rw [← hreps, ← ht', ← hstatus]
    have hinstallments : (t'.modify .loan loanId fun l => { l with status }).installmentsOf loanId =
        t'.installmentsOf loanId := by
      rw [Db.installmentsOf, Db.table_modify_of_ne (by decide), Db.installmentsOf]
    rw [Db.progressOf, hinstallments, Db.find?_modify, if_pos rfl, hloan']
    rfl

end Imported

/-! ## Both together -/

/-- A loan with the terms of a row, as they are stored. -/
structure LoanHeaderRow.SameTerms (h : LoanHeaderRow) (loan : Loan) : Prop where
  principal : loan.principal = ofNumber (round2 (h.principal.getD 0))
  interestRate : loan.interestRate = round2 (h.interestRate.getD 0)
  interestMethod : loan.interestMethod = h.interestMethod
  termMonths : loan.termMonths = (h.termMonths.getD 0).num.toNat

theorem LoanHeaderRow.SameTerms.schedule {h : LoanHeaderRow} {loan : Loan} (hterms : h.SameTerms loan) :
    generateSchedule (toNumber loan.principal) loan.interestRate loan.termMonths loan.interestMethod
      (h.disbursedDate.getD 0) = h.schedule := by
  rw [LoanHeaderRow.schedule, hterms.principal, hterms.interestRate, hterms.interestMethod,
    hterms.termMonths, (wholeCent_round2 _).toNumber_ofNumber]

/-- The import of a loan with its history succeeds, and leaves the loan as a loan with the same terms
is left that is disbursed at the same time and gets the same repayments in the order of their dates,
and of the file on one date. -/
theorem full_history_agrees (auth : Auth) (h : LoanHeaderRow) (repayments : List RepaymentRow)
    (customerId : Id) {s : Db} (hs : s.InstallmentsHaveLoans) {js : Js} {teller : Auth} {loanId : Id}
    {vaultId : Option Id} {t t₁ : Db} {loan updated : Loan}
    (hloan : t.find? .loan loanId = some loan) (hterms : h.SameTerms loan)
    (hnew : t.installmentsOf loanId = [])
    (hdisbursed : (disburseLoan js teller (h.disbursedDate.getD 0) loanId vaultId).run t =
      (.ok updated, t₁))
    {ordered : List RepaymentRow}
    (hordered : InOrderOf (fun rep => rep.paymentDate.getD 0)
      (repayments.filter fun rep => rep.externalRef = h.externalRef) ordered) (recordedById : Id) :
    ∃ s', (importFullHistory auth repayments h customerId).run s = (.ok (), s') ∧
      s'.progressOf (s.nextId .loan) =
        (Proc.runAll (ordered.map fun rep =>
          applyLoanRepaymentInTx loanId (round2 (rep.amount.getD 0)) recordedById) t₁).progressOf
            loanId := by
  have hsorted : h.repaymentsForLoan repayments = ordered :=
    (inOrderOf_insertionSort _ _).eq hordered
  obtain ⟨u, s', hscheduled, hrun, hprogress⟩ :=
    run_importFullHistory auth h repayments customerId hs
  refine ⟨s', hrun, ?_⟩
  obtain ⟨xs, hxs⟩ : ∃ xs, xs = ordered.map RepaymentRow.amountTaken := ⟨_, rfl⟩
  have hcents : ∀ x ∈ xs, WholeCent x := by
    rw [hxs, List.forall_mem_map]
    exact fun rep _ => wholeCent_round2 _
  -- The live loan, once it is disbursed.
  obtain ⟨hloan₁, new, hentries, hrows⟩ := run_disburseLoan_eq_ok hloan hdisbursed
  rw [hterms.schedule] at hrows
  have hinstallments : t₁.installmentsOf loanId = new := by
    refine Db.installmentsOf_insertAll hnew ?_ (pairwise_generateSchedule _ _ _ _ _ loanId) hentries
      hrows
    intro i hi
    obtain ⟨row, -, rfl⟩ := List.mem_map.mp hi
    rfl
  have hscheduled₁ : t₁.NewlyScheduled loanId h.schedule :=
    ⟨Option.isSome_iff_exists.mpr ⟨_, hloan₁⟩, by rw [hinstallments, hrows]⟩
  have hlive : Proc.runAll (ordered.map fun rep =>
      applyLoanRepaymentInTx loanId (round2 (rep.amount.getD 0)) recordedById) t₁ =
        t₁.repayLoanEach loanId xs recordedById := by
    rw [← runAll_applyLoanRepaymentInTx_eq hscheduled₁.found, hxs, List.map_map]
    rfl
  -- The installments are the same from the start, and stay so.
  have hstates : (t₁.repayLoanEach loanId xs recordedById).numberedStates loanId =
      (u.repayEach (s.nextId .loan) xs auth.userId).numberedStates (s.nextId .loan) := by
    apply Db.numberedStates_repayLoanEach
    rw [hscheduled₁.numberedStates, hscheduled.numberedStates]
  have hstatus := @Db.status_repayLoanEach t₁ loanId recordedById xs hcents hscheduled₁.paidSound _
    hloan₁ (.inl rfl)
  have hallPaid := Db.allPaid_congr hstates
  rw [hprogress, hlive, hsorted]
  dsimp only
  rw [← hxs, ← hallPaid]
  apply LoanProgress.ext
  · rw [Db.progressOf_installments, Db.progressOf_installments, hstates]
  · show _ = ((t₁.repayLoanEach loanId xs recordedById).find? .loan loanId).map Loan.status
    rw [hstatus]
    by_cases hnone : ordered = []
    · have hnone' : xs = [] := by rw [hxs, hnone, List.map_nil]
      rw [hnone', if_pos rfl, if_pos hnone]
      have hopen : ¬ (t₁.repayLoanEach loanId [] recordedById).allPaid loanId = true :=
        hscheduled₁.not_allPaid
      rw [if_neg hopen]
    · have hsome : xs ≠ [] := by
        rw [hxs]
        exact fun h => hnone (List.map_eq_nil_iff.mp h)
      rw [if_neg hnone, if_neg hsome]

/-- A loan of 100.00 over two months, as it is migrated. -/
def migratedLoan : LoanHeaderRow :=
  { rowNumber := 2, externalRef := "L-1", customerPhone := "0244111222", productCode := "SME",
    principal := some 100, interestRate := some 0, interestMethod := "FLAT", termMonths := some 2,
    disbursedDate := some 1 }

/-- The file has the second repayment first, and one of another loan. -/
def migratedRepayments : List RepaymentRow :=
  [⟨2, "L-1", some 3, some 60⟩, ⟨3, "L-2", some 2, some 10⟩, ⟨4, "L-1", some 2, some 50⟩]

theorem full_history_agrees_migratedLoan :
    ∃ s', (importFullHistory ⟨1, 2⟩ migratedRepayments migratedLoan 1).run lendingLedger =
        (.ok (), s') ∧
      s'.progressOf 1 =
        (Proc.runAll ((migratedLoan.repaymentsForLoan migratedRepayments).map fun rep =>
          applyLoanRepaymentInTx 1 (round2 (rep.amount.getD 0)) 3)
          ((disburseLoan plainJs ⟨1, 2⟩ 1 1 (some 1)).run
            (lendingLedger.insert .loan approvedLoan)).2).progressOf 1 := by
  obtain ⟨updated, hdisbursed⟩ := exists_run_eq_ok (s := lendingLedger.insert .loan approvedLoan)
    (p := disburseLoan plainJs ⟨1, 2⟩ 1 1 (some 1)) (by decide +kernel)
  have hfound : (lendingLedger.insert .loan approvedLoan).find? .loan 1 = some approvedLoan := rfl
  apply full_history_agrees ⟨1, 2⟩ migratedLoan migratedRepayments 1 (s := lendingLedger) _
    hfound _ (by decide) hdisbursed (inOrderOf_insertionSort _ _) 3
  · intro id i hi
    exact absurd hi nofun
  · exact ⟨by decide +kernel, by decide +kernel, rfl, by decide +kernel⟩

end NexusEfos
