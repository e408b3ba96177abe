/-
The installments between two repayments.

However a sum is split into repayments, they leave the installments as the sum itself does
(`allocateEach_eq`).  Of a new schedule, therefore, the installments that have got anything are at
every moment those at its head, and none of them but the last can be short of what is due: the cent
that an installment may miss when it counts as paid is missed once, on the last one.
-/
import NexusEfos.Loans.Closure

namespace NexusEfos

variable {insts : List InstallmentState}

/-! ## Sums paid in parts -/

/-- What repayments one after the other leave in the installments. -/
def allocateEach (insts : List InstallmentState) (amounts : List ℚ) : List InstallmentState :=
  amounts.foldl (fun insts amount => (allocateInPlace insts amount).1) insts

theorem allocateEach_eq (hinsts : ∀ st ∈ insts, st.WholeCents) {amounts : List ℚ}
    (hamounts : ∀ x ∈ amounts, 0 < x ∧ WholeCent x) :
    allocateEach insts amounts = (allocateInPlace insts amounts.sum).1 := by
  induction amounts generalizing insts with
  | nil => rw [List.sum_nil, allocateInPlace_zero]; rfl
  | cons x rest ih =>
    rw [List.forall_mem_cons] at hamounts
    obtain ⟨⟨hx, hxcents⟩, hrest⟩ := hamounts
    have hsum : 0 ≤ rest.sum := List.sum_nonneg fun y hy => (hrest y hy).1.le
    have hcents : WholeCent rest.sum := WholeCent.sum fun y hy => (hrest y hy).2
    have hfirst : allocateEach insts (x :: rest) =
        allocateEach (allocateInPlace insts x).1 rest := rfl
    rw [hfirst, ih (allocateInPlace_wholeCents hinsts x) hrest,
      allocateInPlace_add hinsts hx.le hxcents hsum hcents, List.sum_cons]

namespace InstallmentState

variable {st : InstallmentState} {c interest principal : ℚ}

/-- Nothing is paid yet, and what is due is not negative. -/
structure Fresh (st : InstallmentState) : Prop where
  interestPaid : st.interestPaid = 0
  principalPaid : st.principalPaid = 0
  status : st.status = .pending
  interest_nonneg : 0 ≤ st.interestDue
  principal_nonneg : 0 ≤ st.principalDue

theorem Fresh.withinDue (h : st.Fresh) : st.WithinDue where
  interest_nonneg := h.interestPaid.ge
  interest_le := h.interestPaid.symm ▸ h.interest_nonneg
  principal_nonneg := h.principalPaid.ge
  principal_le := h.principalPaid.symm ▸ h.principal_nonneg

theorem Fresh.paid_eq (h : st.Fresh) : st.paid = 0 := by
  rw [paid, h.interestPaid, h.principalPaid, add_zero]

/-- Something is paid, and something is outstanding; or the installment is marked so. -/
def PartlyPaid (st : InstallmentState) : Prop :=
  st.status = .partiallyPaid ∨ 0 < st.paid ∧ 0 < st.outstanding

/-- The status says what is paid. -/
def StatusSound (st : InstallmentState) : Prop :=
  st.status = if 0 < st.paid then st.reached else .pending

theorem statusSound_settle (hst : st.Fresh) (hinterest : 0 ≤ interest) (hprincipal : 0 ≤ principal) :
    (st.settle interest principal).StatusSound := by
  have hpaid := paid_settle hinterest hprincipal st
  rw [hst.paid_eq, zero_add] at hpaid
  unfold StatusSound
  rw [hpaid]
  by_cases hsome : 0 < interest + principal
  · rw [if_pos hsome, settle, if_pos hsome]
    rfl
  · rw [if_neg hsome, settle, if_neg hsome]
    exact hst.status

/-- An installment counts as paid when it has got something and misses at most a cent of either
part. -/
theorem StatusSound.of_paid (h : st.StatusSound) (hpaid : st.status = .paid) :
    0 < st.paid ∧ st.outstanding ≤ 2 / 100 := by
  unfold StatusSound reached at h
  rw [hpaid] at h
  split at h
  · next hsome =>
    split at h
    · next hreached =>
      have houtstanding : st.outstanding =
          st.interestDue - st.interestPaid + (st.principalDue - st.principalPaid) := rfl
      exact ⟨hsome, by linarith [hreached.1, hreached.2]⟩
    · exact absurd h (by decide)
  · exact absurd h (by decide)

/-- One that is marked as partly paid is short of what is due. -/
theorem StatusSound.partlyPaid_iff (h : st.StatusSound) (hdue : st.WithinDue) :
    st.PartlyPaid ↔ 0 < st.paid ∧ 0 < st.outstanding := by
  constructor
  · rintro (hmarked | hsome)
    · unfold StatusSound reached at h
      rw [hmarked] at h
      split at h
      · next hsome =>
        refine ⟨hsome, ?_⟩
        split at h
        · exact absurd h (by decide)
        · next hshort =>
          have hi := hdue.interest_le
          have hp := hdue.principal_le
          by_contra hnone
          have hzero : st.interestDue - st.interestPaid + (st.principalDue - st.principalPaid) ≤ 0 :=
            not_lt.mp hnone
          exact hshort ⟨by linarith, by linarith⟩
      · exact absurd h (by decide)
    · exact hsome
  · exact Or.inr

end InstallmentState

section Fresh

variable {c : ℚ}

theorem allocateInPlace_statusSound (hinsts : ∀ st ∈ insts, st.WholeCents)
    (hfresh : ∀ st ∈ insts, st.Fresh) (hc : 0 ≤ c) (hcents : WholeCent c) :
    ∀ st ∈ (allocateInPlace insts c).1, st.StatusSound := by
  revert hfresh
  apply allocateInPlace_induction (P := fun insts c => (∀ st ∈ insts, st.Fresh) →
    ∀ st ∈ (allocateInPlace insts c).1, st.StatusSound) _ _ hinsts hc hcents
  · exact fun _ _ _ _ h => absurd h List.not_mem_nil
  · intro st rest c interest principal hc hinterest hprincipal _ heq ih hfresh
    rw [List.forall_mem_cons] at hfresh
    obtain ⟨-, -, hi, hp⟩ := paidTo_settle hfresh.1.withinDue hc hinterest hprincipal
    rw [heq, List.forall_mem_cons]
    exact ⟨InstallmentState.statusSound_settle hfresh.1 hi hp, ih hfresh.2⟩

/-- The installments that have got anything have none before them with anything outstanding. -/
theorem allocateInPlace_inOrder (hinsts : ∀ st ∈ insts, st.WholeCents)
    (hfresh : ∀ st ∈ insts, st.Fresh) (hc : 0 ≤ c) (hcents : WholeCent c) :
    (allocateInPlace insts c).1.Pairwise fun e e' => 0 < e'.paid → e.outstanding = 0 := by
  have hdue : ∀ st ∈ insts, st.WithinDue := fun st hst => (hfresh st hst).withinDue
  have hlength := (allocateInPlace_paidTo hinsts hdue hc hcents).length_eq
  have hsnd : (insts.zip (allocateInPlace insts c).1).map Prod.snd = (allocateInPlace insts c).1 :=
    List.map_snd_zip hlength.ge
  rw [← hsnd, List.pairwise_map]
  apply (allocateInPlace_pairwise hinsts hdue hc hcents).imp_of_mem
  intro e e' _ he' hchanged hpaid
  apply hchanged
  intro hsame
  rw [hsame, (hfresh e'.1 (List.of_mem_zip he').1).paid_eq] at hpaid
  exact lt_irrefl 0 hpaid

theorem allocateInPlace_withinDue (hinsts : ∀ st ∈ insts, st.WholeCents)
    (hfresh : ∀ st ∈ insts, st.Fresh) (hc : 0 ≤ c) (hcents : WholeCent c) :
    ∀ st ∈ (allocateInPlace insts c).1, st.WithinDue := by
  have h := allocateInPlace_paidTo hinsts (fun st hst => (hfresh st hst).withinDue) hc hcents
  intro st hst
  obtain ⟨n, hn, rfl⟩ := List.getElem_of_mem hst
  exact (h.get (h.length_eq ▸ hn) hn).withinDue

end Fresh

/-- The installments of a new schedule are fresh. -/
theorem Db.NewlyScheduled.fresh {s : Db} {loanId : Id} {rows : List ScheduleRow}
    (h : s.NewlyScheduled loanId rows)
    (hrows : ∀ row ∈ rows, WholeCent row.principalDue ∧ WholeCent row.interestDue)
    (hnonneg : ∀ row ∈ rows, 0 ≤ row.principalDue ∧ 0 ≤ row.interestDue) :
    ∀ st ∈ s.installmentStates loanId, st.Fresh := by
  intro st hst
  obtain ⟨e, he, rfl⟩ := List.mem_map.mp hst
  have hrow : e.2 ∈ rows.map (ScheduleRow.installment loanId) := by
    rw [← h.installments]
    exact List.mem_map_of_mem he
  obtain ⟨row, hmem, hinstallment⟩ := List.mem_map.mp hrow
  obtain ⟨hp, hi⟩ := hrows row hmem
  obtain ⟨hp0, hi0⟩ := hnonneg row hmem
  have hstate : installmentState e = installmentState (e.1, row.installment loanId) := by
    rw [hinstallment]
  have hinterestDue : (installmentState (e.1, row.installment loanId)).interestDue =
      toNumber (ofNumber row.interestDue) := rfl
  have hprincipalDue : (installmentState (e.1, row.installment loanId)).principalDue =
      toNumber (ofNumber row.principalDue) := rfl
  rw [hi.toNumber_ofNumber] at hinterestDue
  rw [hp.toNumber_ofNumber] at hprincipalDue
  rw [hstate]
  exact ⟨toNumber_zero, toNumber_zero, rfl, hinterestDue ▸ hi0, hprincipalDue ▸ hp0⟩

/-- Of a schedule whose rows are not negative at most one installment is partly paid, after any
repayments, and nothing is outstanding on those before it; and when all of them are paid, which
closes the loan, not more than two cents are missing on all of them together. -/
theorem repayments_in_order {rows : List ScheduleRow}
    (hrows : ∀ row ∈ rows, WholeCent row.principalDue ∧ WholeCent row.interestDue)
    (hnonneg : ∀ row ∈ rows, 0 ≤ row.principalDue ∧ 0 ≤ row.interestDue) (s : Db)
    (loanId recordedById : Id) (hs : s.NewlyScheduled loanId rows) (amounts : List Cents)
    (hamounts : ∀ a ∈ amounts, 0 < a) :
    let t := Proc.runAll
      (amounts.map fun a => applyLoanRepaymentInTx loanId (toNumber a) recordedById) s
    (∀ before st later, t.installmentStates loanId = before ++ st :: later → st.PartlyPaid →
        (∀ st' ∈ before, st'.outstanding = 0) ∧ ∀ st' ∈ before ++ later, ¬ st'.PartlyPaid) ∧
      (t.allPaid loanId = true →
        ((t.installmentStates loanId).map InstallmentState.outstanding).sum ≤ 2 / 100) := by
  intro t
  have hwhole := Db.wholeCents_installmentStates s loanId
  have hfresh := hs.fresh hrows hnonneg
  have hc : 0 ≤ toNumber amounts.sum :=
    toNumber_nonneg.mpr (List.sum_nonneg fun a ha => (hamounts a ha).le)
  have hcents := wholeCent_toNumber amounts.sum
  have hstates : t.installmentStates loanId =
      (allocateInPlace (s.installmentStates loanId) (toNumber amounts.sum)).1 :=
    (runAll_applyLoanRepaymentInTx recordedById amounts hamounts hs.found).1
  have horder := allocateInPlace_inOrder hwhole hfresh hc hcents
  have hdue := allocateInPlace_withinDue hwhole hfresh hc hcents
  have hstatus := allocateInPlace_statusSound hwhole hfresh hc hcents
  rw [← hstates] at horder hdue hstatus
  constructor
  · intro before st later hsplit hpartly
    rw [hsplit] at horder hdue hstatus
    have hiff : ∀ st' ∈ before ++ st :: later,
        (st'.PartlyPaid ↔ 0 < st'.paid ∧ 0 < st'.outstanding) := fun st' h =>
      (hstatus st' h).partlyPaid_iff (hdue st' h)
    obtain ⟨hpaid, hshort⟩ := (hiff st (by simp)).mp hpartly
    obtain ⟨-, hlater, hbefore⟩ := List.pairwise_append.mp horder
    have hnone : ∀ st' ∈ before, st'.outstanding = 0 := fun st' h =>
      hbefore st' h st (List.mem_cons_self ..) hpaid
    refine ⟨hnone, ?_⟩
    intro st' hst' hpartly'
    rcases List.mem_append.mp hst' with h | h
    · have hshort' := ((hiff st' (by simp [h])).mp hpartly').2
      rw [hnone st' h] at hshort'
      exact lt_irrefl 0 hshort'
    · have hpaid' := ((hiff st' (by simp [h])).mp hpartly').1
      rw [(List.pairwise_cons.mp hlater).1 st' h hpaid'] at hshort
      exact lt_irrefl 0 hshort
  · intro hall
    obtain ⟨hsome, hpaid⟩ := Db.allPaid_iff.mp hall
    have hmarked : ∀ st ∈ t.installmentStates loanId, st.status = .paid := by
      rw [Db.installmentStates, List.forall_mem_map]
      exact hpaid
    have hne : t.installmentStates loanId ≠ [] := by
      rw [Db.installmentStates]
      exact fun h => hsome (List.map_eq_nil_iff.mp h)
    -- Only the last one may be short of anything.
    obtain ⟨earlier, last, hlast⟩ : ∃ earlier last,
        t.installmentStates loanId = earlier ++ [last] :=
      ⟨_, _, (List.dropLast_append_getLast hne).symm⟩
    rw [hlast] at horder hstatus hmarked ⊢
    obtain ⟨hpaidLast, hmissed⟩ :=
      (hstatus last (by simp)).of_paid (hmarked last (by simp))
    have hzero : (earlier.map InstallmentState.outstanding).sum = 0 := by
      apply List.sum_eq_zero
      intro x hx
      obtain ⟨st, hst, rfl⟩ := List.mem_map.mp hx
      exact (List.pairwise_append.mp horder).2.2 st hst last (List.mem_singleton_self last) hpaidLast
    rw [List.map_append, List.sum_append, hzero, zero_add, List.map_singleton, List.sum_singleton]
    exact hmissed

/-- A loan of 1200.00 over a year without interest is paid off when a cent is missing. -/
theorem repayments_in_order_year :
    let rows := generateRemainingSchedule (toNumber 120000) (toNumber 0) 12 0
    let t := Proc.runAll ([15000, 104999].map fun a => applyLoanRepaymentInTx 1 (toNumber a) 1)
      (newLoan rows)
    t.allPaid 1 = true ∧
      ((t.installmentStates 1).map InstallmentState.outstanding).sum ≤ 2 / 100 := by
  intro rows t
  have hall : t.allPaid 1 = true := by decide +kernel
  have hrows : IsSchedule rows := .remaining 120000 0 12 0 (by decide) (by decide) (by decide)
  exact ⟨hall, (repayments_in_order hrows.sound.2.1 (by decide +kernel) (newLoan _) 1 1
    ⟨by decide +kernel, by decide +kernel⟩ [15000, 104999] (by decide)).2 hall⟩

end NexusEfos
