/-
What the allocation of a repayment leaves in the installments it is given.

`allocateRepayment` changes its installments in place and reports what it has changed.  On whole
cents it is a waterfall whose vessels are the interest and the principal that the installments still
owe, in their order (`allocateInPlace_eq_fill`): everything there is to say about who is paid first,
and how much, follows from that.
-/
import NexusEfos.Library.Waterfall
import NexusEfos.Loans.Schedule

namespace NexusEfos

open Waterfall

deriving instance DecidableEq for InstallmentState
deriving instance DecidableEq for AllocationUpdate

/-- On whole cents the tolerance of half a cent is none. -/
theorem WholeCent.half_cent_lt {x : ℚ} (hx : WholeCent x) : 5 / 1000 < x ↔ 0 < x := by
  obtain ⟨c, rfl⟩ := hx
  constructor
  · intro h
    linarith
  · intro h
    have hone : toNumber 1 ≤ toNumber c := toNumber_le.mpr (toNumber_pos.mp h)
    have hcent : toNumber 1 = 1 / 100 := by norm_num [toNumber]
    linarith

/-! ## The installments -/

namespace InstallmentState

def interestOutstanding (st : InstallmentState) : ℚ := st.interestDue - st.interestPaid

def principalOutstanding (st : InstallmentState) : ℚ := st.principalDue - st.principalPaid

def paid (st : InstallmentState) : ℚ := st.interestPaid + st.principalPaid

def outstanding (st : InstallmentState) : ℚ := st.interestOutstanding + st.principalOutstanding

/-- The figures are whole cents. -/
structure WholeCents (st : InstallmentState) : Prop where
  interestDue : WholeCent st.interestDue
  principalDue : WholeCent st.principalDue
  interestPaid : WholeCent st.interestPaid
  principalPaid : WholeCent st.principalPaid

/-- What is paid is not negative and not more than what is due. -/
structure WithinDue (st : InstallmentState) : Prop where
  interest_nonneg : 0 ≤ st.interestPaid
  interest_le : st.interestPaid ≤ st.interestDue
  principal_nonneg : 0 ≤ st.principalPaid
  principal_le : st.principalPaid ≤ st.principalDue

/-- The status that an installment gets when something is paid on it. -/
def reached (st : InstallmentState) : InstallmentStatus :=
  if st.interestDue - 1 / 100 ≤ st.interestPaid ∧ st.principalDue - 1 / 100 ≤ st.principalPaid then
    .paid
  else .partiallyPaid

/-- Amounts are paid on the interest and on the principal. -/
def pay (interest principal : ℚ) (st : InstallmentState) : InstallmentState :=
  let changed :=
    { st with interestPaid := st.interestPaid + interest,
              principalPaid := st.principalPaid + principal }
  { changed with status := changed.reached }

/-- What is reported about an installment. -/
def update (st : InstallmentState) : AllocationUpdate :=
  ⟨st.id, st.interestPaid, st.principalPaid, st.status⟩

/-- What an installment can still take: the interest, and then the principal. -/
def vessels (st : InstallmentState) : List ℚ :=
  [max 0 st.interestOutstanding, max 0 st.principalOutstanding]

end InstallmentState

/-- `allocateRepayment`, with what it leaves in the installments. -/
def allocateInPlace : List InstallmentState → ℚ → List InstallmentState × List AllocationUpdate
  | [], _ => ([], [])
  | inst :: rest, remaining =>
    if remaining ≤ 0 then (inst :: rest, [])
    else
      let interestOutstanding := inst.interestDue - inst.interestPaid
      let principalOutstanding := inst.principalDue - inst.principalPaid
      if interestOutstanding ≤ 5 / 1000 ∧ principalOutstanding ≤ 5 / 1000 then
        let later := allocateInPlace rest remaining
        (inst :: later.1, later.2)
      else
        let interestPaidNow :=
          if 5 / 1000 < interestOutstanding then min remaining interestOutstanding else 0
        let afterInterest := remaining - interestPaidNow
        let principalPaidNow :=
          if 0 < afterInterest ∧ 5 / 1000 < principalOutstanding then
            min afterInterest principalOutstanding
          else 0
        let later := allocateInPlace rest (afterInterest - principalPaidNow)
        if 0 < interestPaidNow ∨ 0 < principalPaidNow then
          let newInterestPaid := round2 (inst.interestPaid + interestPaidNow)
          let newPrincipalPaid := round2 (inst.principalPaid + principalPaidNow)
          let fullyPaid := inst.interestDue - 1 / 100 ≤ newInterestPaid ∧
            inst.principalDue - 1 / 100 ≤ newPrincipalPaid
          let newStatus := if fullyPaid then .paid else .partiallyPaid
          ({ inst with interestPaid := newInterestPaid, principalPaid := newPrincipalPaid,
                       status := newStatus } :: later.1,
            { id := inst.id, newInterestPaid, newPrincipalPaid, newStatus } :: later.2)
        else (inst :: later.1, later.2)

/-- The updates are those that the other account of the function returns. -/
theorem allocateInPlace_snd (insts : List InstallmentState) (amount : ℚ) :
    (allocateInPlace insts amount).2 = allocateRepayment insts amount := by
  induction insts generalizing amount with
  | nil => rfl
  | cons inst rest ih =>
    rw [allocateInPlace, allocateRepayment]
    by_cases hspent : amount ≤ 0
    · rw [if_pos hspent, if_pos hspent]
    · rw [if_neg hspent, if_neg hspent]
      dsimp only
      by_cases hnothing : inst.interestDue - inst.interestPaid ≤ 5 / 1000 ∧
          inst.principalDue - inst.principalPaid ≤ 5 / 1000
      · rw [if_pos hnothing, if_pos hnothing]
        exact ih amount
      · rw [if_neg hnothing, if_neg hnothing, apply_ite Prod.snd, ih]

/-! ## The waterfall -/

/-- Pay what is poured into the vessels of an installment. -/
def InstallmentState.settle (interest principal : ℚ) (st : InstallmentState) : InstallmentState :=
  if 0 < interest + principal then st.pay interest principal else st

/-- Pay what is poured into the vessels of some installments. -/
def settleAll : List InstallmentState → List ℚ → List InstallmentState
  | st :: rest, interest :: principal :: amounts =>
    st.settle interest principal :: settleAll rest amounts
  | insts, _ => insts

section Waterfall

variable {st : InstallmentState} {insts : List InstallmentState} {c : ℚ}

theorem InstallmentState.WholeCents.interestOutstanding (h : st.WholeCents) :
    WholeCent st.interestOutstanding := h.interestDue.sub h.interestPaid

theorem InstallmentState.WholeCents.principalOutstanding (h : st.WholeCents) :
    WholeCent st.principalOutstanding := h.principalDue.sub h.principalPaid

/-- What is paid of a debt. -/
theorem ite_min_eq {x : ℚ} (hc : 0 ≤ c) (hx : WholeCent x) :
    (if 5 / 1000 < x then min c x else 0) = min c (max 0 x) := by
  simp only [hx.half_cent_lt]
  split
  · next h => rw [max_eq_right h.le]
  · next h => rw [max_eq_left (not_lt.mp h), min_eq_right hc]

/-- The first installment, when there is something to pay with. -/
theorem allocateInPlace_cons (hst : st.WholeCents) (hc : 0 < c) (hcents : WholeCent c)
    (rest : List InstallmentState) :
    let interest := min c (max 0 st.interestOutstanding)
    let principal := min (c - interest) (max 0 st.principalOutstanding)
    let later := allocateInPlace rest (c - interest - principal)
    allocateInPlace (st :: rest) c =
      if 0 < interest + principal then
        (st.pay interest principal :: later.1, (st.pay interest principal).update :: later.2)
      else (st :: later.1, later.2) := by
  intro interest principal later
  have hinterest : 0 ≤ interest := le_min hc.le (le_max_left ..)
  have hleft : 0 ≤ c - interest := sub_nonneg.mpr (min_le_left ..)
  have hprincipal : 0 ≤ principal := le_min hleft (le_max_left ..)
  have hinterestCents : WholeCent interest := hcents.min (WholeCent.zero.max hst.interestOutstanding)
  have hprincipalCents : WholeCent principal :=
    (hcents.sub hinterestCents).min (WholeCent.zero.max hst.principalOutstanding)
  have hinterestNow : (if 5 / 1000 < st.interestDue - st.interestPaid then
      min c (st.interestDue - st.interestPaid) else 0) = interest :=
    ite_min_eq hc.le hst.interestOutstanding
  have hprincipalNow : (if 0 < c - interest ∧ 5 / 1000 < st.principalDue - st.principalPaid then
      min (c - interest) (st.principalDue - st.principalPaid) else 0) = principal := by
    rcases hleft.eq_or_lt with hzero | hpos
    · have hnone : principal = 0 := by
        show min (c - interest) _ = 0
        rw [← hzero]
        exact min_eq_left (le_max_left ..)
      rw [if_neg fun h => h.1.ne hzero, hnone]
    · have h := ite_min_eq hleft hst.principalOutstanding
      simp only [hpos, true_and]
      exact h
  rw [allocateInPlace, if_neg (not_le.mpr hc)]
  simp only [hinterestNow, hprincipalNow]
  by_cases hnothing : st.interestDue - st.interestPaid ≤ 5 / 1000 ∧
      st.principalDue - st.principalPaid ≤ 5 / 1000
  · have hi : max 0 st.interestOutstanding = 0 := by
      apply max_eq_left
      have h := not_lt.mpr hnothing.1
      exact not_lt.mp fun h' => h (hst.interestOutstanding.half_cent_lt.mpr h')
    have hp : max 0 st.principalOutstanding = 0 := by
      apply max_eq_left
      have h := not_lt.mpr hnothing.2
      exact not_lt.mp fun h' => h (hst.principalOutstanding.half_cent_lt.mpr h')
    have hzero : interest = 0 := by
      show min c (max 0 st.interestOutstanding) = 0
      rw [hi, min_eq_right hc.le]
    have hzero' : principal = 0 := by
      show min (c - interest) (max 0 st.principalOutstanding) = 0
      rw [hp, min_eq_right hleft]
    have hsame : later = allocateInPlace rest c := by
      show allocateInPlace rest (c - interest - principal) = _
      rw [hzero, hzero', sub_zero, sub_zero]
    rw [if_pos hnothing, if_neg (by rw [hzero, hzero', add_zero]; exact lt_irrefl 0), hsame]
  · rw [if_neg hnothing]
    have hiff : (0 < interest ∨ 0 < principal) ↔ 0 < interest + principal := by
      constructor
      · rintro (h | h) <;> linarith
      · intro h
        by_contra hno
        rw [not_or, not_lt, not_lt] at hno
        linarith
    rw [(hst.interestPaid.add hinterestCents).round2_eq,
      (hst.principalPaid.add hprincipalCents).round2_eq]
    simp only [hiff]
    rfl

theorem allocateInPlace_zero (insts : List InstallmentState) :
    allocateInPlace insts 0 = (insts, []) := by
  cases insts with
  | nil => rfl
  | cons st rest => rw [allocateInPlace, if_pos le_rfl]

/-- The same, whether there is something to pay with or not. -/
theorem allocateInPlace_settle (hst : st.WholeCents) (hc : 0 ≤ c) (hcents : WholeCent c)
    (rest : List InstallmentState) {interest principal : ℚ}
    (hinterest : interest = min c (max 0 st.interestOutstanding))
    (hprincipal : principal = min (c - interest) (max 0 st.principalOutstanding)) :
    allocateInPlace (st :: rest) c =
      (st.settle interest principal :: (allocateInPlace rest (c - interest - principal)).1,
        (if 0 < interest + principal then [(st.settle interest principal).update] else []) ++
          (allocateInPlace rest (c - interest - principal)).2) := by
  rcases hc.eq_or_lt with rfl | hpos
  · have hi : interest = 0 := hinterest.trans (min_eq_left (le_max_left ..))
    have hp : principal = 0 := by
      rw [hprincipal, hi, sub_zero]
      exact min_eq_left (le_max_left ..)
    rw [hi, hp, sub_zero, sub_zero, allocateInPlace_zero, allocateInPlace_zero,
      InstallmentState.settle, add_zero, if_neg (lt_irrefl 0), if_neg (lt_irrefl 0)]
    rfl
  · rw [allocateInPlace_cons hst hpos hcents, ← hinterest, ← hprincipal]
    unfold InstallmentState.settle
    by_cases hpaid : 0 < interest + principal
    · simp only [if_pos hpaid]
      rfl
    · simp only [if_neg hpaid]
      rfl

/-- Installment by installment: each takes what it can of what is left. -/
theorem allocateInPlace_induction {P : List InstallmentState → ℚ → Prop} (hnil : ∀ c, 0 ≤ c → P [] c)
    (hcons : ∀ st rest c interest principal, 0 ≤ c → interest = min c (max 0 st.interestOutstanding) →
      principal = min (c - interest) (max 0 st.principalOutstanding) →
      0 ≤ c - interest - principal →
      allocateInPlace (st :: rest) c =
        (st.settle interest principal :: (allocateInPlace rest (c - interest - principal)).1,
          (if 0 < interest + principal then [(st.settle interest principal).update] else []) ++
            (allocateInPlace rest (c - interest - principal)).2) →
      P rest (c - interest - principal) → P (st :: rest) c)
    (hinsts : ∀ st ∈ insts, st.WholeCents) (hc : 0 ≤ c) (hcents : WholeCent c) : P insts c := by
  induction insts generalizing c with
  | nil => exact hnil c hc
  | cons st rest ih =>
    have hst := hinsts st (List.mem_cons_self ..)
    obtain ⟨interest, hinterest⟩ : ∃ x, x = min c (max 0 st.interestOutstanding) := ⟨_, rfl⟩
    obtain ⟨principal, hprincipal⟩ : ∃ x, x = min (c - interest) (max 0 st.principalOutstanding) :=
      ⟨_, rfl⟩
    have hinterestCents : WholeCent interest :=
      hinterest ▸ hcents.min (WholeCent.zero.max hst.interestOutstanding)
    have hprincipalCents : WholeCent principal :=
      hprincipal ▸ (hcents.sub hinterestCents).min (WholeCent.zero.max hst.principalOutstanding)
    have hleft : 0 ≤ c - interest - principal := by
      rw [hprincipal]
      exact sub_nonneg.mpr (min_le_left ..)
    apply hcons st rest c interest principal hc hinterest hprincipal hleft
    · exact allocateInPlace_settle hst hc hcents rest hinterest hprincipal
    · exact ih (fun st' h => hinsts st' (List.mem_cons_of_mem st h)) hleft
        ((hcents.sub hinterestCents).sub hprincipalCents)

theorem vessels_nonneg (insts : List InstallmentState) :
    ∀ x ∈ insts.flatMap InstallmentState.vessels, 0 ≤ x := by
  intro x hx
  obtain ⟨st, -, hmem⟩ := List.mem_flatMap.mp hx
  simp only [InstallmentState.vessels, List.mem_cons, List.not_mem_nil, or_false] at hmem
  rcases hmem with rfl | rfl <;> exact le_max_left ..

/-- On whole cents the allocation is a waterfall. -/
theorem allocateInPlace_eq_fill (hinsts : ∀ st ∈ insts, st.WholeCents) (hc : 0 ≤ c)
    (hcents : WholeCent c) :
    (allocateInPlace insts c).1 =
      settleAll insts (fill (insts.flatMap InstallmentState.vessels) c) := by
  refine allocateInPlace_induction (P := fun insts c => (allocateInPlace insts c).1 =
    settleAll insts (fill (insts.flatMap InstallmentState.vessels) c)) (fun _ _ => rfl) ?_ hinsts hc
      hcents
  intro st rest c interest principal _ hinterest hprincipal _ heq ih
  show _ = settleAll (st :: rest) (fill (max 0 st.interestOutstanding ::
    max 0 st.principalOutstanding :: rest.flatMap InstallmentState.vessels) c)
  rw [heq, fill_cons, fill_cons, ← hinterest, ← hprincipal, ih]
  rfl

/-! ## Who is paid -/

namespace InstallmentState

/-- An installment before and after: no less is paid than before and no more than is due, and the
principal only once the interest is paid. -/
structure PaidTo (st st' : InstallmentState) : Prop where
  id : st'.id = st.id
  interestDue : st'.interestDue = st.interestDue
  principalDue : st'.principalDue = st.principalDue
  interest_le : st.interestPaid ≤ st'.interestPaid
  principal_le : st.principalPaid ≤ st'.principalPaid
  withinDue : st'.WithinDue
  interest_first : st.principalPaid < st'.principalPaid → st'.interestOutstanding = 0

variable {interest principal : ℚ}

theorem paid_settle (hinterest : 0 ≤ interest) (hprincipal : 0 ≤ principal) (st : InstallmentState) :
    (st.settle interest principal).paid = st.paid + (interest + principal) := by
  unfold settle
  split
  · unfold pay paid
    ring
  · next hnone => linarith

theorem settle_ne_iff (hinterest : 0 ≤ interest) (hprincipal : 0 ≤ principal)
    (st : InstallmentState) : st.settle interest principal ≠ st ↔ 0 < interest + principal := by
  constructor
  · intro hne
    by_contra hnone
    exact hne (if_neg hnone)
  · intro hpaid heq
    have hsum := paid_settle hinterest hprincipal st
    rw [heq] at hsum
    linarith

theorem settle_eq (hinterest : 0 ≤ interest) (hprincipal : 0 ≤ principal) (st : InstallmentState) :
    (st.settle interest principal).interestPaid = st.interestPaid + interest ∧
      (st.settle interest principal).principalPaid = st.principalPaid + principal ∧
      (st.settle interest principal).interestDue = st.interestDue ∧
      (st.settle interest principal).principalDue = st.principalDue ∧
      (st.settle interest principal).id = st.id := by
  unfold settle
  split
  · exact ⟨rfl, rfl, rfl, rfl, rfl⟩
  · next hnone =>
    have hi : interest = 0 := by linarith
    have hp : principal = 0 := by linarith
    rw [hi, hp, add_zero, add_zero]
    exact ⟨rfl, rfl, rfl, rfl, rfl⟩

theorem WithinDue.interestOutstanding_nonneg (h : st.WithinDue) : 0 ≤ st.interestOutstanding :=
  sub_nonneg.mpr h.interest_le

theorem WithinDue.principalOutstanding_nonneg (h : st.WithinDue) : 0 ≤ st.principalOutstanding :=
  sub_nonneg.mpr h.principal_le

end InstallmentState

/-- What one installment takes. -/
theorem paidTo_settle (hst : st.WithinDue) (hc : 0 ≤ c) {interest principal : ℚ}
    (hinterest : interest = min c (max 0 st.interestOutstanding))
    (hprincipal : principal = min (c - interest) (max 0 st.principalOutstanding)) :
    st.PaidTo (st.settle interest principal) ∧
      (0 < c - interest - principal → (st.settle interest principal).outstanding = 0) ∧
      0 ≤ interest ∧ 0 ≤ principal := by
  rw [max_eq_right hst.interestOutstanding_nonneg] at hinterest
  rw [max_eq_right hst.principalOutstanding_nonneg] at hprincipal
  have hinterest0 : 0 ≤ interest := hinterest ▸ le_min hc hst.interestOutstanding_nonneg
  have hleft : 0 ≤ c - interest := by
    rw [hinterest]
    exact sub_nonneg.mpr (min_le_left ..)
  have hprincipal0 : 0 ≤ principal := hprincipal ▸ le_min hleft hst.principalOutstanding_nonneg
  have hinterestLe : interest ≤ st.interestDue - st.interestPaid := hinterest ▸ min_le_right ..
  have hprincipalLe : principal ≤ st.principalDue - st.principalPaid := hprincipal ▸ min_le_right ..
  obtain ⟨hip, hpp, hid, hpd, hkey⟩ := InstallmentState.settle_eq hinterest0 hprincipal0 st
  have hfull : 0 < c - interest → interest = st.interestOutstanding := by
    intro hpos
    rcases min_choice c st.interestOutstanding with h | h
    · rw [hinterest, h] at hpos
      linarith
    · exact hinterest.trans h
  refine ⟨⟨hkey, hid, hpd, ?_, ?_, ⟨?_, ?_, ?_, ?_⟩, ?_⟩, ?_, hinterest0, hprincipal0⟩
  · linarith
  · linarith
  · linarith [hst.interest_nonneg]
  · linarith
  · linarith [hst.principal_nonneg]
  · linarith
  · intro hpaid
    have hpos : 0 < c - interest := by
      have hsome : 0 < principal := by linarith
      exact lt_of_lt_of_le hsome (hprincipal ▸ min_le_left ..)
    unfold InstallmentState.interestOutstanding
    rw [hip, hid, hfull hpos, InstallmentState.interestOutstanding]
    ring
  · intro hpos
    have hpos' : 0 < c - interest := by linarith
    have hprincipalFull : principal = st.principalOutstanding := by
      rcases min_choice (c - interest) st.principalOutstanding with h | h
      · rw [hprincipal, h] at hpos
        linarith
      · exact hprincipal.trans h
    unfold InstallmentState.outstanding InstallmentState.interestOutstanding
      InstallmentState.principalOutstanding
    rw [hip, hpp, hid, hpd, hfull hpos', hprincipalFull, InstallmentState.interestOutstanding,
      InstallmentState.principalOutstanding]
    ring

/-- Each installment before and after. -/
theorem allocateInPlace_paidTo (hinsts : ∀ st ∈ insts, st.WholeCents)
    (hdue : ∀ st ∈ insts, st.WithinDue) (hc : 0 ≤ c) (hcents : WholeCent c) :
    List.Forall₂ InstallmentState.PaidTo insts (allocateInPlace insts c).1 := by
  revert hdue
  apply allocateInPlace_induction (P := fun insts c => (∀ st ∈ insts, st.WithinDue) →
    List.Forall₂ InstallmentState.PaidTo insts (allocateInPlace insts c).1) _ _ hinsts hc hcents
  · exact fun _ _ _ => .nil
  · intro st rest c interest principal hc hinterest hprincipal _ heq ih hdue
    rw [heq]
    apply List.Forall₂.cons
    · exact (paidTo_settle (hdue st (List.mem_cons_self ..)) hc hinterest hprincipal).1
    · exact ih fun st' h => hdue st' (List.mem_cons_of_mem st h)

/-- Everything that is paid goes to the installments, as far as they owe it. -/
theorem sum_paid_allocateInPlace (hinsts : ∀ st ∈ insts, st.WholeCents)
    (hdue : ∀ st ∈ insts, st.WithinDue) (hc : 0 ≤ c) (hcents : WholeCent c) :
    ((allocateInPlace insts c).1.map InstallmentState.paid).sum =
      (insts.map InstallmentState.paid).sum +
        min c (insts.map InstallmentState.outstanding).sum := by
  have hvessels := vessels_nonneg insts
  have hsum : (insts.flatMap InstallmentState.vessels).sum =
      (insts.map InstallmentState.outstanding).sum := by
    clear hvessels hinsts
    induction insts with
    | nil => rfl
    | cons st rest ih =>
      have hst := hdue st (List.mem_cons_self ..)
      rw [List.flatMap_cons, List.sum_append,
        ih fun st' h => hdue st' (List.mem_cons_of_mem st h), List.map_cons, List.sum_cons]
      simp only [InstallmentState.vessels, List.sum_cons, List.sum_nil, add_zero,
        max_eq_right hst.interestOutstanding_nonneg, max_eq_right hst.principalOutstanding_nonneg,
        InstallmentState.outstanding]
  have hpoured : ∀ (insts : List InstallmentState) (xs : List ℚ), (∀ x ∈ xs, 0 ≤ x) →
      xs.length = 2 * insts.length →
      ((settleAll insts xs).map InstallmentState.paid).sum =
        (insts.map InstallmentState.paid).sum + xs.sum := by
    intro insts xs hxs hlength
    fun_induction settleAll insts xs with
    | case1 st rest interest principal amounts ih =>
      have hi := hxs interest (List.mem_cons_self ..)
      have hp := hxs principal (List.mem_cons_of_mem _ (List.mem_cons_self ..))
      have hrest := ih (fun x hx => hxs x (List.mem_cons_of_mem _ (List.mem_cons_of_mem _ hx)))
        (by simpa [Nat.mul_add] using hlength)
      simp only [List.map_cons, List.sum_cons, hrest, InstallmentState.paid_settle hi hp]
      ring
    | case2 insts xs hne =>
      cases xs with
      | nil => rw [List.sum_nil, add_zero]
      | cons x xs =>
        cases xs with
        | nil => simp at hlength; omega
        | cons y ys =>
          cases insts with
          | nil => simp at hlength
          | cons st rest => exact absurd rfl (hne st rest x y ys rfl)
  rw [allocateInPlace_eq_fill hinsts hc hcents, hpoured insts _ (fill_nonneg hvessels hc),
    sum_fill hvessels hc, hsum]
  rw [length_fill]
  simp [List.length_flatMap, InstallmentState.vessels, Nat.mul_comm]

/-- An installment that has changed has none before it with anything outstanding. -/
theorem allocateInPlace_pairwise (hinsts : ∀ st ∈ insts, st.WholeCents)
    (hdue : ∀ st ∈ insts, st.WithinDue) (hc : 0 ≤ c) (hcents : WholeCent c) :
    (insts.zip (allocateInPlace insts c).1).Pairwise fun e e' =>
      e'.2 ≠ e'.1 → e.2.outstanding = 0 := by
  revert hdue
  apply allocateInPlace_induction (P := fun insts c => (∀ st ∈ insts, st.WithinDue) →
    (insts.zip (allocateInPlace insts c).1).Pairwise fun e e' =>
      e'.2 ≠ e'.1 → e.2.outstanding = 0) _ _ hinsts hc hcents
  · exact fun _ _ _ => .nil
  · intro st rest c interest principal hc hinterest hprincipal hleft heq ih hdue
    rw [heq]
    apply List.Pairwise.cons
    · intro e he hchanged
      apply (paidTo_settle (hdue st (List.mem_cons_self ..)) hc hinterest hprincipal).2.1
      -- Nothing changes once there is nothing left to pay with.
      apply lt_of_le_of_ne hleft
      intro hzero
      rw [← hzero, allocateInPlace_zero] at he
      dsimp only at he
      rw [List.zipWith_self] at he
      obtain ⟨st', -, rfl⟩ := List.mem_map.mp he
      exact hchanged rfl
    · exact ih fun st' h => hdue st' (List.mem_cons_of_mem st h)

/-- The updates are about the installments that have changed. -/
theorem allocateInPlace_updates (hinsts : ∀ st ∈ insts, st.WholeCents)
    (hdue : ∀ st ∈ insts, st.WithinDue) (hc : 0 ≤ c) (hcents : WholeCent c) :
    (allocateInPlace insts c).2 =
      ((insts.zip (allocateInPlace insts c).1).filter fun e => e.2 ≠ e.1).map fun e =>
        e.2.update := by
  revert hdue
  apply allocateInPlace_induction (P := fun insts c => (∀ st ∈ insts, st.WithinDue) →
    (allocateInPlace insts c).2 =
      ((insts.zip (allocateInPlace insts c).1).filter fun e => e.2 ≠ e.1).map fun e =>
        e.2.update) _ _ hinsts hc hcents
  · exact fun _ _ _ => rfl
  · intro st rest c interest principal hc hinterest hprincipal _ heq ih hdue
    obtain ⟨-, -, hi, hp⟩ :=
      paidTo_settle (hdue st (List.mem_cons_self ..)) hc hinterest hprincipal
    have hrest := ih fun st' h => hdue st' (List.mem_cons_of_mem st h)
    have hchanged := InstallmentState.settle_ne_iff hi hp st
    rw [heq]
    dsimp only
    rw [List.zip_cons_cons, List.filter_cons, hrest]
    by_cases hpaid : 0 < interest + principal
    · rw [if_pos hpaid, if_pos (by simpa using hchanged.mpr hpaid)]
      rfl
    · rw [if_neg hpaid, if_neg (by simpa using fun h => hpaid (hchanged.mp h))]
      rfl

/-! ## Paying in parts -/

/-- What is left of an installment is whole cents again. -/
theorem allocateInPlace_wholeCents (hinsts : ∀ st ∈ insts, st.WholeCents) (c : ℚ) :
    ∀ st ∈ (allocateInPlace insts c).1, st.WholeCents := by
  fun_induction allocateInPlace insts c with
  | case1 => exact hinsts
  | case2 => exact hinsts
  | case3 inst rest c _ _ _ _ _ ih =>
    rw [List.forall_mem_cons] at hinsts ⊢
    exact ⟨hinsts.1, ih hinsts.2⟩
  | case4 inst rest c _ _ _ _ _ _ _ _ _ _ _ _ _ ih =>
    rw [List.forall_mem_cons] at hinsts ⊢
    exact ⟨⟨hinsts.1.interestDue, hinsts.1.principalDue, wholeCent_round2 _, wholeCent_round2 _⟩,
      ih hinsts.2⟩
  | case5 inst rest c _ _ _ _ _ _ _ _ _ ih =>
    rw [List.forall_mem_cons] at hinsts ⊢
    exact ⟨hinsts.1, ih hinsts.2⟩

namespace InstallmentState

variable {interest principal interest' principal' : ℚ}

theorem settle_settle (hinterest : 0 ≤ interest) (hprincipal : 0 ≤ principal)
    (hinterest' : 0 ≤ interest') (hprincipal' : 0 ≤ principal') (st : InstallmentState) :
    (st.settle interest principal).settle interest' principal' =
      st.settle (interest + interest') (principal + principal') := by
  by_cases hlater : 0 < interest' + principal'
  · have hboth : 0 < interest + interest' + (principal + principal') := by linarith
    rw [settle, settle, settle, if_pos hlater, if_pos hboth]
    split
    · unfold pay reached
      simp only [add_assoc]
    · next hnone =>
      have hi : interest = 0 := by linarith
      have hp : principal = 0 := by linarith
      rw [hi, hp, zero_add, zero_add]
  · have hi : interest' = 0 := by linarith
    have hp : principal' = 0 := by linarith
    rw [hi, hp, add_zero, add_zero, settle, if_neg (by rw [add_zero]; exact lt_irrefl 0)]

/-- What an installment can take once it has got something. -/
theorem vessels_settle (hinterest : 0 ≤ interest) (hprincipal : 0 ≤ principal)
    (hinterestLe : interest ≤ max 0 st.interestOutstanding)
    (hprincipalLe : principal ≤ max 0 st.principalOutstanding) :
    (st.settle interest principal).vessels =
      [max 0 st.interestOutstanding - interest, max 0 st.principalOutstanding - principal] := by
  have hleft : ∀ {x y : ℚ}, 0 ≤ x → x ≤ max 0 y → max 0 (y - x) = max 0 y - x := by
    intro x y hx hle
    rcases le_total y 0 with h | h
    · rw [max_eq_left h] at hle ⊢
      have hzero : x = 0 := le_antisymm hle hx
      rw [hzero, sub_zero, sub_zero, max_eq_left h]
    · rw [max_eq_right h] at hle ⊢
      exact max_eq_right (sub_nonneg.mpr hle)
  obtain ⟨hip, hpp, hid, hpd, -⟩ := settle_eq hinterest hprincipal st
  have hi : (st.settle interest principal).interestOutstanding =
      st.interestOutstanding - interest := by
    unfold interestOutstanding
    rw [hip, hid]
    ring
  have hp : (st.settle interest principal).principalOutstanding =
      st.principalOutstanding - principal := by
    unfold principalOutstanding
    rw [hpp, hpd]
    ring
  rw [vessels, hi, hp, hleft hinterest hinterestLe, hleft hprincipal hprincipalLe]

end InstallmentState

/-- What some installments can take once they have got something. -/
theorem vessels_settleAll {xs : List ℚ} (hxs : ∀ x ∈ xs, 0 ≤ x)
    (hle : List.Forall₂ (· ≤ ·) xs (insts.flatMap InstallmentState.vessels)) :
    (settleAll insts xs).flatMap InstallmentState.vessels =
      List.zipWith (· - ·) (insts.flatMap InstallmentState.vessels) xs := by
  induction insts generalizing xs with
  | nil =>
    rw [List.flatMap_nil, List.forall₂_nil_right_iff] at hle
    rw [hle]
    rfl
  | cons st rest ih =>
    obtain ⟨interest, later, hinterest, hlater, rfl⟩ := List.forall₂_cons_right_iff.mp hle
    obtain ⟨principal, amounts, hprincipal, hamounts, rfl⟩ := List.forall₂_cons_right_iff.mp hlater
    rw [List.forall_mem_cons, List.forall_mem_cons] at hxs
    rw [settleAll, List.flatMap_cons,
      InstallmentState.vessels_settle hxs.1 hxs.2.1 hinterest hprincipal, ih hxs.2.2 hamounts]
    rfl

theorem settleAll_settleAll {xs ys : List ℚ} (hxs : ∀ x ∈ xs, 0 ≤ x) (hys : ∀ y ∈ ys, 0 ≤ y)
    (hlength : xs.length = ys.length) :
    settleAll (settleAll insts xs) ys = settleAll insts (List.zipWith (· + ·) xs ys) := by
  fun_induction settleAll insts xs generalizing ys with
  | case1 st rest interest principal xs ih =>
    obtain ⟨interest', principal', ys, rfl⟩ : ∃ i p zs, ys = i :: p :: zs := by
      match ys, hlength with
      | i :: p :: zs, _ => exact ⟨i, p, zs, rfl⟩
    rw [List.forall_mem_cons, List.forall_mem_cons] at hxs hys
    rw [settleAll, InstallmentState.settle_settle hxs.1 hxs.2.1 hys.1 hys.2.1,
      ih hxs.2.2 hys.2.2 (by simpa using hlength)]
    rfl
  | case2 insts xs hne =>
    cases insts with
    | nil => 
      cases ys <;> cases xs <;> rfl
    | cons st rest =>
      match xs, ys, hlength with
      | [], [], _ => rfl
      | [x], [y], _ => rfl
      | x :: x' :: xs, _, _ => exact absurd rfl (hne st rest x x' xs rfl)

/-- To pay in two parts is to pay at once. -/
theorem allocateInPlace_add (hinsts : ∀ st ∈ insts, st.WholeCents) (hc : 0 ≤ c)
    (hcents : WholeCent c) (hd : 0 ≤ d) (hdcents : WholeCent d) :
    (allocateInPlace (allocateInPlace insts c).1 d).1 = (allocateInPlace insts (c + d)).1 := by
  have hvessels := vessels_nonneg insts
  have hfilled := fill_nonneg hvessels hc
  have hle := fill_le (insts.flatMap InstallmentState.vessels) c
  have hleft : ∀ x ∈ List.zipWith (· - ·) (insts.flatMap InstallmentState.vessels)
      (fill (insts.flatMap InstallmentState.vessels) c), 0 ≤ x := by
    rw [← vessels_settleAll hfilled hle]
    exact vessels_nonneg _
  rw [allocateInPlace_eq_fill (allocateInPlace_wholeCents hinsts c) hd hdcents,
    allocateInPlace_eq_fill hinsts hc hcents, vessels_settleAll hfilled hle,
    settleAll_settleAll hfilled (fill_nonneg hleft hd), ← fill_add hvessels hc hd,
    allocateInPlace_eq_fill hinsts (add_nonneg hc hd) (hcents.add hdcents)]
  rw [length_fill, length_fill, List.length_zipWith, length_fill, min_self]

end Waterfall

/-- Two installments, of which the first has had its interest paid. -/
def twoInstallments : List InstallmentState :=
  [⟨1, 5, 100, 5, 0, .partiallyPaid⟩, ⟨2, 4, 100, 0, 0, .pending⟩]

theorem wholeCents_twoInstallments : ∀ st ∈ twoInstallments, st.WholeCents := by
  have hcents : ∀ n : ℤ, WholeCent n := fun n => ⟨n * 100, by simp [toNumber]⟩
  intro st hst
  simp only [twoInstallments, List.mem_cons, List.not_mem_nil, or_false] at hst
  rcases hst with rfl | rfl
  · exact ⟨hcents 5, hcents 100, hcents 5, by exact_mod_cast hcents 0⟩
  · exact ⟨hcents 4, hcents 100, by exact_mod_cast hcents 0, by exact_mod_cast hcents 0⟩

end NexusEfos
