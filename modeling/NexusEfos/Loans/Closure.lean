/-
Paying a loan off.

An installment gets a new status when something is paid on it, and a loan is closed once all of its
installments are paid.  In a sequence of repayments only their total matters (`allocateInPlace_add`),
so that the question is what a single repayment of that total leaves.  It leaves an installment as
it was when nothing is due on it, and short of what is due when a negative one has made the total
smaller than what the others ask for.
-/
import NexusEfos.Loans.Import
import NexusEfos.Loans.Payments
import NexusEfos.Loans.ScheduleTotals
import NexusEfos.Loans.Waterfall

namespace NexusEfos

/-! ## Installments that can be paid off -/

namespace InstallmentState

/-- Something is outstanding, and neither the interest nor the principal is overpaid by more than a
cent. -/
structure Payable (st : InstallmentState) : Prop where
  owed : 0 < st.outstanding
  interest : -(1 / 100) ≤ st.interestOutstanding
  principal : -(1 / 100) ≤ st.principalOutstanding

variable {st : InstallmentState} {interest principal : ℚ}

/-- An installment becomes paid when it gets something, and all but a cent of what is outstanding. -/
theorem status_settle_eq_paid_iff (hst : st.status ≠ .paid) :
    (st.settle interest principal).status = .paid ↔
      0 < interest + principal ∧ st.interestOutstanding - 1 / 100 ≤ interest ∧
        st.principalOutstanding - 1 / 100 ≤ principal := by
  unfold settle interestOutstanding principalOutstanding
  by_cases hpaid : 0 < interest + principal
  · have hreached : (st.pay interest principal).status = .paid ↔
        st.interestDue - 1 / 100 ≤ st.interestPaid + interest ∧
          st.principalDue - 1 / 100 ≤ st.principalPaid + principal := by
      show (if _ then InstallmentStatus.paid else .partiallyPaid) = .paid ↔ _
      constructor
      · intro h
        by_contra hno
        rw [if_neg hno] at h
        exact absurd h (by decide)
      · intro h
        exact if_pos h
    rw [if_pos hpaid, hreached]
    constructor
    · intro h
      exact ⟨hpaid, by linarith [h.1], by linarith [h.2]⟩
    · intro h
      exact ⟨by linarith [h.2.1], by linarith [h.2.2]⟩
  · rw [if_neg hpaid]
    exact iff_of_false hst fun h => hpaid h.1

end InstallmentState

section Installments

variable {insts : List InstallmentState} {c : ℚ}

theorem sum_outstanding_nonneg (h : ∀ st ∈ insts, st.Payable) :
    0 ≤ (insts.map InstallmentState.outstanding).sum := by
  apply List.sum_nonneg
  intro x hx
  obtain ⟨st, hst, rfl⟩ := List.mem_map.mp hx
  exact (h st hst).owed.le

/-- Nothing is overpaid on any installment but the last. -/
def NoneOverpaidBeforeLast (insts : List InstallmentState) : Prop :=
  ∀ st ∈ insts.dropLast, 0 ≤ st.interestOutstanding ∧ 0 ≤ st.principalOutstanding

theorem NoneOverpaidBeforeLast.tail {st st' : InstallmentState} {rest : List InstallmentState}
    (h : NoneOverpaidBeforeLast (st :: st' :: rest)) :
    (0 ≤ st.interestOutstanding ∧ 0 ≤ st.principalOutstanding) ∧
      NoneOverpaidBeforeLast (st' :: rest) :=
  ⟨h st (List.mem_cons_self ..), fun st'' hst'' => h st'' (List.mem_cons_of_mem st hst'')⟩

/-- Installments that can be paid off are, by what is outstanding on them. -/
theorem allocateInPlace_all_paid (hinsts : ∀ st ∈ insts, st.WholeCents)
    (hopen : ∀ st ∈ insts, st.status ≠ .paid) (hover : NoneOverpaidBeforeLast insts)
    (hpayable : ∀ st ∈ insts, st.Payable)
    (hsum : (insts.map InstallmentState.outstanding).sum ≤ c) (hcents : WholeCent c) :
    ∀ st ∈ (allocateInPlace insts c).1, st.status = .paid := by
  have hc := (sum_outstanding_nonneg hpayable).trans hsum
  revert hopen hover hpayable hsum
  apply allocateInPlace_induction (P := fun insts c => (∀ st ∈ insts, st.status ≠ .paid) →
    NoneOverpaidBeforeLast insts → (∀ st ∈ insts, st.Payable) →
    (insts.map InstallmentState.outstanding).sum ≤ c →
    ∀ st ∈ (allocateInPlace insts c).1, st.status = .paid) _ _ hinsts hc hcents
  · exact fun _ _ _ _ _ _ _ h => absurd h List.not_mem_nil
  · intro st rest c interest principal hc hinterest hprincipal hleft heq ih hopen hover hpayable hsum
    rw [heq]
    rw [List.forall_mem_cons] at hopen hpayable ⊢
    rw [List.map_cons, List.sum_cons] at hsum
    have hrest := sum_outstanding_nonneg hpayable.2
    obtain ⟨howed, hi, hp⟩ := hpayable.1
    have houtstanding : st.outstanding = st.interestOutstanding + st.principalOutstanding := rfl
    rw [houtstanding] at howed hsum
    have hpoured : interest ≤ c := hinterest ▸ min_le_left ..
    constructor
    · rw [InstallmentState.status_settle_eq_paid_iff hopen.1]
      rcases le_total 0 st.interestOutstanding with hi' | hi'
      · rw [max_eq_right hi'] at hinterest
        rcases le_total 0 st.principalOutstanding with hp' | hp'
        · rw [max_eq_right hp'] at hprincipal
          have hinterest' := hinterest.trans (min_eq_right (by linarith))
          have hprincipal' := hprincipal.trans (min_eq_right (by linarith))
          exact ⟨by linarith, by linarith, by linarith⟩
        · rw [max_eq_left hp', min_eq_right (sub_nonneg.mpr hpoured)] at hprincipal
          rcases min_choice c st.interestOutstanding with h | h
          · exact ⟨by linarith, by linarith, by linarith⟩
          · exact ⟨by linarith, by linarith, by linarith⟩
      · rw [max_eq_left hi', min_eq_right hc] at hinterest
        rw [max_eq_right (by linarith), hinterest, sub_zero] at hprincipal
        rcases min_choice c st.principalOutstanding with h | h
        · exact ⟨by linarith, by linarith, by linarith⟩
        · exact ⟨by linarith, by linarith, by linarith⟩
    · cases rest with
      | nil => exact fun _ h => absurd h List.not_mem_nil
      | cons st' rest =>
        obtain ⟨⟨hi', hp'⟩, hover'⟩ := hover.tail
        rw [max_eq_right hi', min_eq_right (by linarith)] at hinterest
        rw [max_eq_right hp', min_eq_right (by linarith)] at hprincipal
        exact ih hopen.2 hover' hpayable.2 (by linarith)

/-- Installments that are paid off by what is outstanding on them can be paid off. -/
theorem payable_of_allocateInPlace (hinsts : ∀ st ∈ insts, st.WholeCents)
    (hopen : ∀ st ∈ insts, st.status ≠ .paid) (hover : NoneOverpaidBeforeLast insts)
    (hc : 0 ≤ c) (hsum : c = (insts.map InstallmentState.outstanding).sum) (hcents : WholeCent c)
    (hpaid : ∀ st ∈ (allocateInPlace insts c).1, st.status = .paid) :
    ∀ st ∈ insts, st.Payable := by
  revert hopen hover hsum hpaid
  apply allocateInPlace_induction (P := fun insts c => (∀ st ∈ insts, st.status ≠ .paid) →
    NoneOverpaidBeforeLast insts → c = (insts.map InstallmentState.outstanding).sum →
    (∀ st ∈ (allocateInPlace insts c).1, st.status = .paid) → ∀ st ∈ insts, st.Payable) _ _ hinsts
      hc hcents
  · exact fun _ _ _ _ _ _ _ h => absurd h List.not_mem_nil
  · intro st rest c interest principal hc hinterest hprincipal hleft heq ih hopen hover hsum hpaid
    rw [heq] at hpaid
    rw [List.forall_mem_cons] at hopen hpaid ⊢
    have houtstanding : st.outstanding = st.interestOutstanding + st.principalOutstanding := rfl
    rw [List.map_cons, List.sum_cons, houtstanding] at hsum
    obtain ⟨⟨hsome, hi, hp⟩, hlater⟩ := And.imp_left
      (InstallmentState.status_settle_eq_paid_iff hopen.1).mp hpaid
    have hinterestLe : interest ≤ max 0 st.interestOutstanding := hinterest ▸ min_le_right ..
    have hprincipalLe : principal ≤ max 0 st.principalOutstanding := hprincipal ▸ min_le_right ..
    have hpoured : interest ≤ c := hinterest ▸ min_le_left ..
    cases rest with
    | nil =>
      rw [List.map_nil, List.sum_nil, add_zero] at hsum
      refine ⟨⟨?_, ?_, ?_⟩, fun _ h => absurd h List.not_mem_nil⟩
      · linarith
      · rcases le_total 0 st.interestOutstanding with hi' | hi'
        · linarith
        · rw [max_eq_left hi', min_eq_right hc] at hinterest
          linarith
      · rcases le_total 0 st.principalOutstanding with hp' | hp'
        · linarith
        · linarith
    | cons st' rest =>
      obtain ⟨⟨hi', hp'⟩, hover'⟩ := hover.tail
      rw [max_eq_right hi'] at hinterest hinterestLe
      rw [max_eq_right hp'] at hprincipal hprincipalLe
      refine ⟨⟨by linarith, by linarith, by linarith⟩, ?_⟩
      -- The first installment leaves nothing for the others unless it is paid in full.
      have hneither : c - interest - principal ≠ 0 := by
        intro hzero
        rw [hzero, allocateInPlace_zero] at hlater
        exact hopen.2 st' (List.mem_cons_self ..) (hlater st' (List.mem_cons_self ..))
      have hinterest' : interest = st.interestOutstanding := by
        rcases min_choice c st.interestOutstanding with h | h
        · have hnone : c - interest = 0 := by linarith
          have hzero : principal = 0 := by
            rw [hprincipal, hnone]
            exact min_eq_left hp'
          exact absurd (by linarith) hneither
        · exact hinterest.trans h
      have hprincipal' : principal = st.principalOutstanding := by
        rcases min_choice (c - interest) st.principalOutstanding with h | h
        · exact absurd (by linarith) hneither
        · exact hprincipal.trans h
      exact ih hopen.2 hover' (by linarith) hlater

end Installments

/-! ## The installments in place -/

section InPlace

variable {insts : List InstallmentState} {us : List AllocationUpdate}

theorem foldl_applyInPlace_of_ne {st : InstallmentState} (h : ∀ u ∈ us, st.id ≠ u.id) :
    us.foldl (fun st u => u.applyInPlace st) st = st := by
  induction us with
  | nil => rfl
  | cons u us ih =>
    rw [List.forall_mem_cons] at h
    rw [List.foldl_cons, AllocationUpdate.applyInPlace, if_neg h.1, ih h.2]

/-- What is left of the installments is what the updates make of them. -/
theorem allocateInPlace_fst (hids : (insts.map InstallmentState.id).Nodup) (c : ℚ) :
    (allocateInPlace insts c).1 =
      insts.map fun st => (allocateRepayment insts c).foldl (fun st u => u.applyInPlace st) st := by
  rw [← allocateInPlace_snd]
  -- No update of the others concerns the first one.
  have hother : ∀ (st : InstallmentState) (rest : List InstallmentState) (c : ℚ),
      (st.id ∉ rest.map InstallmentState.id) →
        ∀ u ∈ (allocateInPlace rest c).2, st.id ≠ u.id := by
    intro st rest c hst u hu heq
    rw [allocateInPlace_snd] at hu
    obtain ⟨st', hst', hid⟩ := mem_allocateRepayment hu
    exact hst (heq ▸ hid ▸ List.mem_map_of_mem hst')
  fun_induction allocateInPlace insts c with
  | case1 => rfl
  | case2 inst rest c _ => exact (List.map_id _).symm
  | case3 inst rest c _ _ _ _ later ih =>
    rw [List.map_cons, List.nodup_cons] at hids
    rw [List.map_cons, foldl_applyInPlace_of_ne (hother inst rest c hids.1), ← ih hids.2]
  | case4 inst rest c _ _ _ _ _ _ _ later _ newInterestPaid newPrincipalPaid _ newStatus ih =>
    rw [List.map_cons, List.nodup_cons] at hids
    have hfirst : AllocationUpdate.applyInPlace ⟨inst.id, newInterestPaid, newPrincipalPaid, newStatus⟩
        inst = { inst with interestPaid := newInterestPaid, principalPaid := newPrincipalPaid,
                           status := newStatus } := if_pos rfl
    rw [List.map_cons, List.foldl_cons, hfirst]
    apply congrArg₂ List.cons
    · rw [foldl_applyInPlace_of_ne]
      exact hother inst rest _ hids.1
    · rw [ih hids.2]
      apply List.map_congr_left
      intro st hst
      have hne : st.id ≠ inst.id := fun heq => hids.1 (heq ▸ List.mem_map_of_mem hst)
      rw [List.foldl_cons, AllocationUpdate.applyInPlace, if_neg hne]
  | case5 inst rest c _ _ _ _ _ _ _ later _ ih =>
    rw [List.map_cons, List.nodup_cons] at hids
    rw [List.map_cons, foldl_applyInPlace_of_ne (hother inst rest _ hids.1), ← ih hids.2]

/-- An update stores whole cents. -/
theorem wholeCents_allocateRepayment (insts : List InstallmentState) (c : ℚ) :
    ∀ u ∈ allocateRepayment insts c, WholeCent u.newInterestPaid ∧ WholeCent u.newPrincipalPaid := by
  fun_induction allocateRepayment insts c with
  | case1 => exact fun _ h => absurd h List.not_mem_nil
  | case2 => exact fun _ h => absurd h List.not_mem_nil
  | case3 _ _ _ _ _ _ _ ih => exact ih
  | case4 _ _ _ _ _ _ _ _ _ _ _ _ _ _ _ ih =>
    rw [List.forall_mem_cons]
    exact ⟨⟨wholeCent_round2 _, wholeCent_round2 _⟩, ih⟩
  | case5 _ _ _ _ _ _ _ _ _ _ _ _ ih => exact ih

end InPlace

/-- What the updates of an allocation make of a stored installment. -/
def applyUpdates (us : List AllocationUpdate) (k : Id) (i : LoanInstallment) : LoanInstallment :=
  us.foldl (fun i u => if k = u.id then u.apply i else i) i

section Stored

variable {us : List AllocationUpdate}

theorem applyUpdates_keeps (us : List AllocationUpdate) (k : Id) (i : LoanInstallment) :
    (applyUpdates us k i).loanId = i.loanId ∧
      (applyUpdates us k i).installmentNumber = i.installmentNumber := by
  unfold applyUpdates
  induction us generalizing i with
  | nil => exact ⟨rfl, rfl⟩
  | cons u us ih =>
    rw [List.foldl_cons]
    obtain ⟨hloan, hnumber⟩ := ih (if k = u.id then u.apply i else i)
    rw [hloan, hnumber]
    split
    · exact ⟨rfl, rfl⟩
    · exact ⟨rfl, rfl⟩

/-- It is what they make of the installment at hand. -/
theorem installmentState_applyUpdates
    (hus : ∀ u ∈ us, WholeCent u.newInterestPaid ∧ WholeCent u.newPrincipalPaid) (k : Id)
    (i : LoanInstallment) :
    installmentState (k, applyUpdates us k i) =
      us.foldl (fun st u => u.applyInPlace st) (installmentState (k, i)) := by
  unfold applyUpdates
  induction us generalizing i with
  | nil => rfl
  | cons u us ih =>
    rw [List.forall_mem_cons] at hus
    rw [List.foldl_cons, List.foldl_cons, ih hus.2]
    congr 1
    by_cases hk : k = u.id
    · have hstate : u.applyInPlace (installmentState (k, i)) =
          { installmentState (k, i) with
              interestPaid := u.newInterestPaid, principalPaid := u.newPrincipalPaid,
              status := u.newStatus } := if_pos hk
      rw [if_pos hk, hstate]
      unfold installmentState AllocationUpdate.apply
      rw [hus.1.1.toNumber_ofNumber, hus.1.2.toNumber_ofNumber]
    · rw [if_neg hk]
      exact (if_neg hk).symm

namespace Db

theorem entries_foldl_allocation (us : List AllocationUpdate) (s : Db) :
    ((us.foldl (fun s u => s.modify .loanInstallment u.id u.apply) s).table
        .loanInstallment).entries =
      (s.table .loanInstallment).entries.map fun e => (e.1, applyUpdates us e.1 e.2) := by
  unfold applyUpdates
  induction us generalizing s with
  | nil => exact (List.map_id _).symm
  | cons u us ih =>
    rw [List.foldl_cons, ih, Db.table_modify_self, OrderedMap.modify, OrderedMap.updateAll,
      List.map_map]
    rfl

/-- The installments of a loan, as an allocation reads them. -/
def installmentStates (s : Db) (loanId : Id) : List InstallmentState :=
  (s.installmentsOf loanId).map installmentState

variable {s : Db} {loanId : Id}

theorem wholeCents_installmentStates (s : Db) (loanId : Id) :
    ∀ st ∈ s.installmentStates loanId, st.WholeCents := by
  intro st hst
  obtain ⟨e, -, rfl⟩ := List.mem_map.mp hst
  exact ⟨wholeCent_toNumber _, wholeCent_toNumber _, wholeCent_toNumber _, wholeCent_toNumber _⟩

theorem nodup_installmentStates (s : Db) (loanId : Id) :
    ((s.installmentStates loanId).map InstallmentState.id).Nodup := by
  have h := nodup_installmentsOf s loanId
  rw [installmentStates, List.map_map]
  exact h

/-- A repayment writes the updates of its allocation into the rows of the loan, which keep their
order. -/
theorem installmentsOf_repay (s : Db) (loanId : Id) (x : ℚ) (recordedById : Id) :
    (s.repay loanId x recordedById).installmentsOf loanId = (s.installmentsOf loanId).map fun e =>
      (e.1, applyUpdates (allocateRepayment (s.installmentStates loanId) x) e.1 e.2) := by
  obtain ⟨us, hus⟩ : ∃ us, us = allocateRepayment (s.installmentStates loanId) x := ⟨_, rfl⟩
  have hentries : ((s.repay loanId x recordedById).table .loanInstallment).entries =
      (s.table .loanInstallment).entries.map fun e => (e.1, applyUpdates us e.1 e.2) := by
    rw [repay, ← installmentStates, ← hus, entries_foldl_allocation, Db.table_insert_of_ne (by decide)]
  rw [← hus, installmentsOf, installmentsOf, hentries, List.filter_map]
  rw [List.map_insertionSort _ fun i j : Id × LoanInstallment =>
    i.2.installmentNumber ≤ j.2.installmentNumber]
  · congr 2
    apply List.filter_congr
    intro e _
    simp only [Function.comp_apply, (applyUpdates_keeps us e.1 e.2).1]
  · intro e _ e' _
    simp only [(applyUpdates_keeps us _ _).2]

/-- A repayment leaves of the installments what its allocation leaves of them. -/
theorem installmentStates_repay (s : Db) (loanId : Id) (x : ℚ) (recordedById : Id) :
    (s.repay loanId x recordedById).installmentStates loanId =
      (allocateInPlace (s.installmentStates loanId) x).1 := by
  have hrows := installmentsOf_repay s loanId x recordedById
  obtain ⟨us, hus⟩ : ∃ us, us = allocateRepayment (s.installmentStates loanId) x := ⟨_, rfl⟩
  rw [← hus] at hrows
  rw [allocateInPlace_fst (nodup_installmentStates s loanId), ← hus, installmentStates, hrows,
    installmentStates, List.map_map, List.map_map]
  apply List.map_congr_left
  intro e _
  exact installmentState_applyUpdates (hus ▸ wholeCents_allocateRepayment _ _) e.1 e.2

end Db

end Stored

/-! ## Repayments, one after the other -/

section Run

variable {s : Db} {loanId : Id} {loan : Loan}

/-- A loop of updates whose rows are there. -/
theorem run_forEach_update {m : Model} {β : Type} {xs : List β} {key : β → Id}
    {data : β → Row m → Row m} {s : Db} (h : ∀ x ∈ xs, (s.find? m (key x)).isSome) :
    (Proc.forEach xs fun x => do let _ ← update m (key x) (data x)).run s =
      (.ok (), xs.foldl (fun s x => s.modify m (key x) (data x)) s) := by
  induction xs generalizing s with
  | nil => rfl
  | cons x xs ih =>
    rw [List.forall_mem_cons] at h
    obtain ⟨row, hrow⟩ := Option.isSome_iff_exists.mp h.1
    have hupdate : (update m (key x) (data x)).run s =
        (.ok (data x row), s.modify m (key x) (data x)) := by
      rw [run_update, hrow]
    rw [Proc.forEach_cons, Proc.bind_assoc, Proc.run_bind_ok hupdate, List.foldl_cons, ← ih]
    · rfl
    · intro y hy
      rw [Db.find?_modify]
      split
      · rw [Option.isSome_map]
        exact h.2 y hy
      · exact h.2 y hy

/-- The status of a loan that is there is written. -/
theorem run_updateLoanStatus (hloan : s.find? .loan loanId = some loan) :
    ∃ closed t, (updateLoanStatus loanId loan).run s = (.ok closed, t) := by
  have hupdate : ∀ f : Loan → Loan, (update .loan loanId f).run s =
      (.ok (f loan), s.modify .loan loanId f) := by
    intro f
    rw [run_update, hloan]
  rw [updateLoanStatus, Proc.run_bind_ok (run_findMany ..)]
  dsimp only
  split
  · exact ⟨_, _, Proc.run_bind_ok (hupdate _) _⟩
  · split
    · exact ⟨_, _, Proc.run_bind_ok (hupdate _) _⟩
    · exact ⟨_, _, rfl⟩

/-- A repayment of a loan that is there succeeds. -/
theorem run_applyLoanRepaymentInTx (hloan : s.find? .loan loanId = some loan) (x : ℚ)
    (recordedById : Id) :
    ((applyLoanRepaymentInTx loanId x recordedById).run s).2 = s.repayLoan loanId x recordedById := by
  have hfound : (query fun s => (s.find? .loan loanId).map fun loan =>
      (loan, s.installmentsOf loanId)).run s = (.ok (some (loan, s.installmentsOf loanId)), s) := by
    show (Except.ok ((s.find? .loan loanId).map fun loan => (loan, s.installmentsOf loanId)), s) = _
    rw [hloan]
    rfl
  have hrows : ∀ u ∈ allocateRepayment ((s.installmentsOf loanId).map installmentState) x,
      ((s.insert .loanRepayment { loanId, amount := ofNumber x, recordedById := some recordedById }).find?
        .loanInstallment u.id).isSome := by
    intro u hu
    obtain ⟨st, hst, hid⟩ := mem_allocateRepayment hu
    obtain ⟨e, he, rfl⟩ := List.mem_map.mp hst
    rw [Db.find?_insert_of_ne (by decide), ← hid]
    exact Option.isSome_iff_exists.mpr ⟨e.2, (Db.mem_installmentsOf.mp he).1⟩
  have hkept : (s.repay loanId x recordedById).find? .loan loanId = some loan := by
    rw [Db.find?_repay_loan, hloan]
  obtain ⟨closed, t, hstatus⟩ := run_updateLoanStatus hkept
  have hrun : (applyLoanRepaymentInTx loanId x recordedById).run s =
      (.ok (s.nextId .loanRepayment, closed), t) := by
    rw [applyLoanRepaymentInTx, Proc.run_bind_ok hfound, Proc.orFail_some]
    show (create .loanRepayment _ >>= _).run s = _
    rw [Proc.run_bind_ok (run_create ..), Proc.run_bind_ok (run_forEach_update hrows)]
    exact Proc.run_bind_ok hstatus _
  obtain ⟨-, -, -, ht⟩ := run_applyLoanRepaymentInTx_eq hrun
  rw [hrun, ht]

namespace Db

/-- Every installment of a loan is paid, and the loan is closed. -/
structure PaidOff (s : Db) (loanId : Id) : Prop where
  installments : ∀ e ∈ s.installmentsOf loanId, e.2.status = .paid
  closed : ∃ loan, s.find? .loan loanId = some loan ∧ loan.status = .closed

theorem allPaid_iff : s.allPaid loanId = true ↔
    s.installmentsOf loanId ≠ [] ∧ ∀ e ∈ s.installmentsOf loanId, e.2.status = .paid := by
  have hperm := List.perm_insertionSort
    (fun i j : Id × LoanInstallment => i.2.installmentNumber ≤ j.2.installmentNumber)
    ((s.table .loanInstallment).entries.filter fun i => i.2.loanId = loanId)
  rw [allPaid, Bool.and_eq_true, Bool.not_eq_true', List.isEmpty_eq_false_iff, List.all_eq_true,
    installmentsOf, ne_eq, ne_eq, ← List.length_eq_zero_iff, ← List.length_eq_zero_iff, hperm.length_eq]
  simp only [hperm.mem_iff, decide_eq_true_eq]

theorem installmentsOf_repayLoan (s : Db) (loanId : Id) (x : ℚ) (recordedById : Id) :
    (s.repayLoan loanId x recordedById).installmentsOf loanId =
      (s.repay loanId x recordedById).installmentsOf loanId := by
  rw [installmentsOf, repayLoan, Db.table_modify_of_ne (by decide)]
  rfl

theorem find?_repayLoan (hloan : s.find? .loan loanId = some loan) (x : ℚ) (recordedById : Id) :
    (s.repayLoan loanId x recordedById).find? .loan loanId = some
      { loan with status := (s.repay loanId x recordedById).statusAfter loanId loan.status } := by
  rw [repayLoan, Db.find?_modify, if_pos rfl, find?_repay_loan, hloan]
  rfl

end Db

/-- What repayments one after the other make of a database. -/
theorem runAll_applyLoanRepaymentInTx (recordedById : Id) (amounts : List Cents)
    (hamounts : ∀ a ∈ amounts, 0 < a) (hloan : (s.find? .loan loanId).isSome) :
    let t := Proc.runAll
      (amounts.map fun a => applyLoanRepaymentInTx loanId (toNumber a) recordedById) s
    t.installmentStates loanId =
        (allocateInPlace (s.installmentStates loanId) (toNumber amounts.sum)).1 ∧
      (amounts ≠ [] → t.installmentsOf loanId ≠ [] →
        (∀ e ∈ t.installmentsOf loanId, e.2.status = .paid) → t.PaidOff loanId) := by
  induction amounts generalizing s with
  | nil =>
    rw [List.sum_nil, toNumber_zero, allocateInPlace_zero]
    exact ⟨rfl, fun h => absurd rfl h⟩
  | cons a amounts ih =>
    intro t
    rw [List.forall_mem_cons] at hamounts
    obtain ⟨loan, hloan'⟩ := Option.isSome_iff_exists.mp hloan
    have hfirst := run_applyLoanRepaymentInTx hloan' (toNumber a) recordedById
    have hfound := Db.find?_repayLoan hloan' (toNumber a) recordedById
    have ht : t = Proc.runAll
        (amounts.map fun a => applyLoanRepaymentInTx loanId (toNumber a) recordedById)
          (s.repayLoan loanId (toNumber a) recordedById) := by
      rw [← hfirst]
      rfl
    obtain ⟨hstates, hclosed⟩ := ih hamounts.2 (Option.isSome_iff_exists.mpr ⟨_, hfound⟩)
    rw [← ht] at hstates hclosed
    have hsum : 0 ≤ amounts.sum := List.sum_nonneg fun x hx => (hamounts.2 x hx).le
    constructor
    · rw [hstates, Db.installmentStates, Db.installmentsOf_repayLoan, ← Db.installmentStates,
        Db.installmentStates_repay, allocateInPlace_add (Db.wholeCents_installmentStates s loanId)
          (toNumber_nonneg.mpr hamounts.1.le) (wholeCent_toNumber a) (toNumber_nonneg.mpr hsum)
          (wholeCent_toNumber _), ← toNumber_add, List.sum_cons]
    · intro _ hsome hpaid
      rcases eq_or_ne amounts [] with hlast | hmore
      · -- The last of the repayments closes the loan.
        rw [hlast] at ht
        have ht' : t = s.repayLoan loanId (toNumber a) recordedById := ht
        have hall : (s.repay loanId (toNumber a) recordedById).allPaid loanId = true := by
          rw [Db.allPaid_iff, ← Db.installmentsOf_repayLoan, ← ht']
          exact ⟨hsome, hpaid⟩
        refine ⟨hpaid, ?_⟩
        rw [ht', hfound]
        exact ⟨_, rfl, if_pos hall⟩
      · exact hclosed hmore hsome hpaid

end Run

/-! ## Schedules -/

/-- The schedules that there are. -/
inductive IsSchedule : List ScheduleRow → Prop
  | generated (principal : Cents) (annualRatePct : ℚ) (termMonths : ℕ) (method : String)
      (startDate : DateTime) (hprincipal : 0 ≤ principal) (hrate : 0 ≤ annualRatePct)
      (hterm : 0 < termMonths) :
      IsSchedule (generateSchedule (toNumber principal) annualRatePct termMonths method startDate)
  | remaining (outstandingPrincipal outstandingInterest : Cents) (remainingInstallments : ℕ)
      (nextDueDate : DateTime) (hprincipal : 0 ≤ outstandingPrincipal)
      (hinterest : 0 ≤ outstandingInterest) (hcount : 0 < remainingInstallments) :
      IsSchedule (generateRemainingSchedule (toNumber outstandingPrincipal)
        (toNumber outstandingInterest) remainingInstallments nextDueDate)

namespace ScheduleRow

def due (row : ScheduleRow) : ℚ := row.principalDue + row.interestDue

/-- The row asks for something, and none of its figures is below minus one cent. -/
def Payable (row : ScheduleRow) : Prop :=
  0 < row.due ∧ -(1 / 100) ≤ row.principalDue ∧ -(1 / 100) ≤ row.interestDue

instance decidablePayable (row : ScheduleRow) : Decidable row.Payable :=
  inferInstanceAs (Decidable (_ ∧ _ ∧ _))

end ScheduleRow

/-- A loan whose installments are the rows of a schedule, with nothing paid on them. -/
structure Db.NewlyScheduled (s : Db) (loanId : Id) (rows : List ScheduleRow) : Prop where
  found : (s.find? .loan loanId).isSome
  installments : (s.installmentsOf loanId).map Prod.snd = rows.map (ScheduleRow.installment loanId)

theorem wholeCents_reducingBalanceRows (payment rate : ℚ) (termMonths : ℕ) (startDate : DateTime)
    (n i : ℕ) (balance : ℚ) :
    ∀ row ∈ reducingBalanceRows payment rate termMonths startDate n i balance,
      WholeCent row.principalDue ∧ WholeCent row.interestDue := by
  induction n generalizing i balance with
  | zero => exact fun _ h => absurd h List.not_mem_nil
  | succ n ih =>
    rw [reducingBalanceRows, List.forall_mem_cons]
    exact ⟨⟨wholeCent_round2 _, wholeCent_round2 _⟩, ih _ _⟩

/-- The figures of a schedule are whole cents, and only the last row may ask for less than
nothing. -/
theorem IsSchedule.sound {rows : List ScheduleRow} (h : IsSchedule rows) :
    rows ≠ [] ∧ (∀ row ∈ rows, WholeCent row.principalDue ∧ WholeCent row.interestDue) ∧
      ∀ row ∈ rows.dropLast, 0 ≤ row.interestDue ∧ 0 ≤ row.principalDue := by
  cases h with
  | generated principal annualRatePct termMonths method startDate hprincipal hrate hterm =>
    refine ⟨?_, ?_, ?_⟩
    · intro hnone
      have hone := one_mem_generateSchedule (toNumber principal) annualRatePct hterm method startDate
      rw [hnone] at hone
      exact absurd hone List.not_mem_nil
    · unfold generateSchedule
      split
      · exact wholeCents_reducingBalanceRows _ _ _ _ _ _ _
      · rw [List.forall_mem_map]
        exact fun k _ => ⟨wholeCent_round2 _, wholeCent_round2 _⟩
    · intro row hrow
      exact (generateSchedule_nonneg (toNumber_nonneg.mpr hprincipal) hrate termMonths method startDate
        row (List.mem_of_mem_dropLast hrow)).symm
  | remaining outstandingPrincipal outstandingInterest n nextDueDate hprincipal hinterest hcount =>
    obtain ⟨m, rfl⟩ := Nat.exists_eq_succ_of_ne_zero hcount.ne'
    have hshare : ∀ c : Cents, 0 ≤ c → 0 ≤ round2 (toNumber c / (m.succ : ℕ)) := fun c hc =>
      round2_nonneg (div_nonneg (toNumber_nonneg.mpr hc) (Nat.cast_nonneg _))
    unfold generateRemainingSchedule
    refine ⟨?_, ?_, ?_⟩
    · simp
    · rw [List.forall_mem_map]
      intro k _
      dsimp only
      constructor
      · split
        · exact wholeCent_round2 _
        · exact wholeCent_round2 _
      · split
        · exact wholeCent_round2 _
        · exact wholeCent_round2 _
    · dsimp only
      rw [List.range_succ, List.map_append, List.map_singleton, List.dropLast_concat,
        List.forall_mem_map]
      intro k hk
      have hne : k + 1 ≠ m.succ := by
        have hlt := List.mem_range.mp hk
        omega
      dsimp only
      rw [if_neg hne, if_neg hne]
      exact ⟨hshare _ hinterest, hshare _ hprincipal⟩

/-- The installments at hand are the rows. -/
theorem Db.NewlyScheduled.figures {s : Db} {loanId : Id} {rows : List ScheduleRow} (h : s.NewlyScheduled loanId rows)
    (hrows : ∀ row ∈ rows, WholeCent row.principalDue ∧ WholeCent row.interestDue) :
    (s.installmentStates loanId).map
        (fun st => (st.interestOutstanding, st.principalOutstanding, st.status)) =
      rows.map fun row => (row.interestDue, row.principalDue, InstallmentStatus.pending) := by
  have hstates : (s.installmentStates loanId).map
      (fun st => (st.interestOutstanding, st.principalOutstanding, st.status)) =
      ((s.installmentsOf loanId).map Prod.snd).map fun i =>
        (toNumber i.interestDue - toNumber i.interestPaid,
          toNumber i.principalDue - toNumber i.principalPaid, i.status) := by
    rw [Db.installmentStates, List.map_map, List.map_map]
    rfl
  rw [hstates, h.installments, List.map_map]
  apply List.map_congr_left
  intro row hrow
  obtain ⟨hp, hi⟩ := hrows row hrow
  show (toNumber (ofNumber row.interestDue) - toNumber 0,
    toNumber (ofNumber row.principalDue) - toNumber 0, InstallmentStatus.pending) = _
  rw [hi.toNumber_ofNumber, hp.toNumber_ofNumber, toNumber_zero, sub_zero, sub_zero]

/-- What holds of the figures holds of the rows. -/
theorem forall_figures {α β γ : Type*} {xs : List α} {ys : List β} {f : α → γ} {g : β → γ}
    (h : xs.map f = ys.map g) (P : γ → Prop) : (∀ x ∈ xs, P (f x)) ↔ ∀ y ∈ ys, P (g y) := by
  rw [← List.forall_mem_map (f := f) (P := P), h, List.forall_mem_map]

/-- A loan with the installments of a schedule. -/
def newLoan (rows : List ScheduleRow) : Db :=
  (Db.empty.insert .loan
    { institutionId := 1, customerId := 1, principal := 120000, interestRate := 0, termMonths := 12,
      status := .disbursed }).insertAll .loanInstallment (rows.map (ScheduleRow.installment 1))

end NexusEfos
