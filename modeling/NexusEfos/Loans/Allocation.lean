/-
What the allocation of a repayment does to the installments of a loan.

An installment is paid its interest first and then its principal, and what is left
goes to the next one.  So a repayment pays the smaller of its amount and of what is
outstanding (`pays_repay`), and no installment is paid more than it is due.  The
installments a schedule generates start out like that
(`sound_generateSchedule`).
-/
import NexusEfos.Loans.Repayment
import Mathlib.Algebra.Order.BigOperators.Group.List

namespace NexusEfos

/-! ## One installment -/

namespace LoanInstallment

def interestOutstanding (i : LoanInstallment) : Cents := i.interestDue - i.interestPaid

def principalOutstanding (i : LoanInstallment) : Cents := i.principalDue - i.principalPaid

/-- What is still to be paid. -/
def outstanding (i : LoanInstallment) : Cents := i.interestOutstanding + i.principalOutstanding

def paid (i : LoanInstallment) : Cents := i.principalPaid + i.interestPaid

def due (i : LoanInstallment) : Cents := i.principalDue + i.interestDue

/-- Nothing is paid beyond what is due. -/
structure Sound (i : LoanInstallment) : Prop where
  interest_nonneg : 0 ≤ i.interestPaid
  interest_le : i.interestPaid ≤ i.interestDue
  principal_nonneg : 0 ≤ i.principalPaid
  principal_le : i.principalPaid ≤ i.principalDue

theorem outstanding_eq (i : LoanInstallment) : i.outstanding = i.due - i.paid := by
  unfold outstanding interestOutstanding principalOutstanding due paid
  ring

theorem Sound.interestOutstanding_nonneg {i : LoanInstallment} (h : i.Sound) :
    0 ≤ i.interestOutstanding := sub_nonneg.mpr h.interest_le

theorem Sound.principalOutstanding_nonneg {i : LoanInstallment} (h : i.Sound) :
    0 ≤ i.principalOutstanding := sub_nonneg.mpr h.principal_le

theorem Sound.outstanding_nonneg {i : LoanInstallment} (h : i.Sound) : 0 ≤ i.outstanding :=
  add_nonneg h.interestOutstanding_nonneg h.principalOutstanding_nonneg

end LoanInstallment

/-- What an amount pays of two debts, the first one first. -/
theorem min_add_min_sub {a b : ℤ} (hb : 0 ≤ b) (c : ℤ) :
    min c a + min (c - min c a) b = min c (a + b) := by
  omega

/-- Something is paid while there is something to pay and to pay with. -/
theorem pos_or_pos_of_min {c a b i p : ℤ} (hc : 0 < c) (ha : a = min c i)
    (hb : b = min (c - a) p) (h : ¬ (i ≤ 0 ∧ p ≤ 0)) : 0 < a ∨ 0 < b := by
  omega

theorem toNumber_min (a b : Cents) : toNumber (min a b) = min (toNumber a) (toNumber b) :=
  Monotone.map_min fun _ _ h => toNumber_le.mpr h

/-- On whole cents the tolerance of half a cent is none. -/
theorem half_cent_lt_toNumber {c : Cents} : 5 / 1000 < toNumber c ↔ 0 < c := by
  constructor
  · intro h
    apply toNumber_pos.mp
    linarith
  · intro h
    have hone : toNumber 1 ≤ toNumber c := toNumber_le.mpr h
    have hcent : toNumber 1 = 1 / 100 := by norm_num [toNumber]
    linarith

theorem toNumber_le_half_cent {c : Cents} : toNumber c ≤ 5 / 1000 ↔ c ≤ 0 := by
  rw [← not_lt, half_cent_lt_toNumber, not_lt]

/-- An amount is paid as far as there is something to pay. -/
theorem ite_min_toNumber {c a : Cents} (hc : 0 ≤ c) (ha : 0 ≤ a) :
    (if 5 / 1000 < toNumber a then min (toNumber c) (toNumber a) else 0) = toNumber (min c a) := by
  by_cases h : 5 / 1000 < toNumber a
  · rw [if_pos h, toNumber_min]
  · rw [half_cent_lt_toNumber] at h
    have hzero : a = 0 := le_antisymm (not_lt.mp h) ha
    rw [hzero, min_eq_right hc, toNumber_zero, if_neg (by norm_num)]

/-- The allocation to the first of some installments, when there is something to
pay with. -/
theorem allocateRepayment_cons {e : Id × LoanInstallment} (he : e.2.Sound) {c : Cents}
    (hc : 0 < c) (rest : List InstallmentState) :
    e.2.outstanding = 0 ∧
        allocateRepayment (installmentState e :: rest) (toNumber c) =
          allocateRepayment rest (toNumber c) ∨
      ∃ a b status, 0 ≤ a ∧ a ≤ e.2.interestOutstanding ∧ 0 ≤ b ∧ b ≤ e.2.principalOutstanding ∧
        a + b = min c e.2.outstanding ∧
        allocateRepayment (installmentState e :: rest) (toNumber c) =
          ⟨e.1, toNumber (e.2.interestPaid + a), toNumber (e.2.principalPaid + b), status⟩ ::
            allocateRepayment rest (toNumber (c - (a + b))) := by
  have hinterest := he.interestOutstanding_nonneg
  have hprincipal := he.principalOutstanding_nonneg
  obtain ⟨a, ha⟩ : ∃ a, a = min c e.2.interestOutstanding := ⟨_, rfl⟩
  obtain ⟨b, hb⟩ : ∃ b, b = min (c - a) e.2.principalOutstanding := ⟨_, rfl⟩
  have hleft : 0 ≤ c - a := sub_nonneg.mpr (ha ▸ min_le_left ..)
  -- What the code computes of the two parts, in cents.
  have hinterestDue : (installmentState e).interestDue - (installmentState e).interestPaid =
      toNumber e.2.interestOutstanding := (toNumber_sub _ _).symm
  have hprincipalDue : (installmentState e).principalDue - (installmentState e).principalPaid =
      toNumber e.2.principalOutstanding := (toNumber_sub _ _).symm
  have hinterestNow : (if 5 / 1000 < toNumber e.2.interestOutstanding then
      min (toNumber c) (toNumber e.2.interestOutstanding) else 0) = toNumber a := by
    rw [ha]
    exact ite_min_toNumber hc.le hinterest
  have hprincipalNow : (if 0 < toNumber (c - a) ∧ 5 / 1000 < toNumber e.2.principalOutstanding then
      min (toNumber (c - a)) (toNumber e.2.principalOutstanding) else 0) = toNumber b := by
    by_cases h : 0 < c - a
    · rw [hb, ← ite_min_toNumber hleft hprincipal]
      simp only [toNumber_pos.mpr h, true_and]
    · have hzero := le_antisymm (not_lt.mp h) hleft
      rw [hb, hzero, toNumber_zero, if_neg fun h' => lt_irrefl _ h'.1, min_eq_left hprincipal,
        toNumber_zero]
  have hpositive : ¬ toNumber c ≤ 0 := not_le.mpr (toNumber_pos.mpr hc)
  rw [allocateRepayment, if_neg hpositive]
  simp only [hinterestDue, hprincipalDue, hinterestNow, ← toNumber_sub, hprincipalNow,
    toNumber_le_half_cent]
  by_cases hnothing : e.2.interestOutstanding ≤ 0 ∧ e.2.principalOutstanding ≤ 0
  · rw [if_pos hnothing]
    have hi := le_antisymm hnothing.1 hinterest
    have hp := le_antisymm hnothing.2 hprincipal
    exact .inl ⟨by rw [LoanInstallment.outstanding, hi, hp, add_zero], rfl⟩
  · have hsome := pos_or_pos_of_min hc ha hb hnothing
    have hpays : a + b = min c e.2.outstanding := by
      rw [hb, ha]
      exact min_add_min_sub hprincipal c
    have hround : ∀ x y : Cents, round2 (toNumber x + toNumber y) = toNumber (x + y) := by
      intro x y
      rw [← toNumber_add, round2_toNumber]
    have hinterestPaid : round2 ((installmentState e).interestPaid + toNumber a) =
        toNumber (e.2.interestPaid + a) := hround _ _
    have hprincipalPaid : round2 ((installmentState e).principalPaid + toNumber b) =
        toNumber (e.2.principalPaid + b) := hround _ _
    have ha0 : 0 ≤ a := ha ▸ le_min hc.le hinterest
    have hai : a ≤ e.2.interestOutstanding := ha ▸ min_le_right ..
    have hb0 : 0 ≤ b := hb ▸ le_min hleft hprincipal
    have hbp : b ≤ e.2.principalOutstanding := hb ▸ min_le_right ..
    rw [if_neg hnothing, if_pos (by simpa only [toNumber_pos] using hsome), hinterestPaid,
      hprincipalPaid, sub_sub]
    exact .inr ⟨a, b, _, ha0, hai, hb0, hbp, hpays, rfl⟩

/-! ## The installments of a loan -/

namespace Db

/-- What is paid on the installments of a loan. -/
def paidTotal (s : Db) (loanId : Id) : Cents :=
  (s.table .loanInstallment).total fun _ i => if i.loanId = loanId then i.paid else 0

/-- What is due on the installments of a loan. -/
def dueTotal (s : Db) (loanId : Id) : Cents :=
  (s.table .loanInstallment).total fun _ i => if i.loanId = loanId then i.due else 0

/-- The repayments recorded on a loan. -/
def repaidTotal (s : Db) (loanId : Id) : Cents :=
  (s.table .loanRepayment).total fun _ r => if r.loanId = loanId then r.amount else 0

/-- No installment of a loan is paid beyond what is due. -/
def InstallmentsSound (s : Db) (loanId : Id) : Prop :=
  ∀ k i, s.find? .loanInstallment k = some i → i.loanId = loanId → i.Sound

/-- The outstanding amounts of the installments, as the allocation walks them. -/
theorem sum_outstanding (s : Db) (loanId : Id) :
    ((s.installmentsOf loanId).map fun e => e.2.outstanding).sum =
      s.dueTotal loanId - s.paidTotal loanId := by
  have hperm := List.perm_insertionSort
    (fun i j : Id × LoanInstallment => i.2.installmentNumber ≤ j.2.installmentNumber)
    ((s.table .loanInstallment).entries.filter fun i => i.2.loanId = loanId)
  have hfilter := OrderedMap.sum_map_filter
    (fun i : Id × LoanInstallment => decide (i.2.loanId = loanId)) (fun e => e.2.outstanding)
    (s.table .loanInstallment).entries
  simp only [decide_eq_true_eq] at hfilter
  have hdue : s.dueTotal loanId =
      ((s.table .loanInstallment).total fun _ i => if i.loanId = loanId then i.outstanding else 0) +
        s.paidTotal loanId := by
    rw [dueTotal, paidTotal, ← OrderedMap.total_add]
    apply OrderedMap.total_congr
    intro k i _
    by_cases h : i.loanId = loanId
    · simp only [if_pos h, LoanInstallment.outstanding_eq, sub_add_cancel]
    · simp only [if_neg h, add_zero]
  rw [installmentsOf, (hperm.map _).sum_eq, hfilter, hdue, add_sub_cancel_right]
  rfl

theorem mem_installmentsOf {s : Db} {loanId : Id} {e : Id × LoanInstallment} :
    e ∈ s.installmentsOf loanId ↔
      s.find? .loanInstallment e.1 = some e.2 ∧ e.2.loanId = loanId := by
  rw [installmentsOf, (List.perm_insertionSort _ _).mem_iff, List.mem_filter, decide_eq_true_eq]
  exact and_congr_left fun _ => OrderedMap.get?_eq_some.symm

theorem nodup_installmentsOf (s : Db) (loanId : Id) :
    ((s.installmentsOf loanId).map Prod.fst).Nodup := by
  have hperm := (List.perm_insertionSort
    (fun i j : Id × LoanInstallment => i.2.installmentNumber ≤ j.2.installmentNumber)
    ((s.table .loanInstallment).entries.filter fun i => i.2.loanId = loanId)).map Prod.fst
  rw [installmentsOf, hperm.nodup_iff]
  exact (s.table .loanInstallment).nodup_keys.sublist (List.filter_sublist.map Prod.fst)

end Db

/-- An amount has been paid on a loan. -/
structure Pays (loanId : Id) (x : Cents) (s t : Db) : Prop where
  paid : t.paidTotal loanId = s.paidTotal loanId + x
  due : t.dueTotal loanId = s.dueTotal loanId
  sound : s.InstallmentsSound loanId → t.InstallmentsSound loanId

/-- An update of the allocation leaves alone what is not its to write. -/
theorem AllocationUpdate.apply_keeps (u : AllocationUpdate) (i : LoanInstallment) :
    (u.apply i).loanId = i.loanId ∧ (u.apply i).due = i.due := ⟨rfl, rfl⟩

namespace Pays

variable {loanId : Id} {x y : Cents} {s t u : Db}

theorem of_table_eq (h : t.table .loanInstallment = s.table .loanInstallment) (loanId : Id) :
    Pays loanId 0 s t := by
  constructor
  · rw [Db.paidTotal, h, add_zero]
    rfl
  · rw [Db.dueTotal, h]
    rfl
  · intro hs k i hi
    rw [Db.find?, h] at hi
    exact hs k i hi

theorem zero (loanId : Id) (s : Db) : Pays loanId 0 s s := of_table_eq rfl loanId

theorem trans (h : Pays loanId x s t) (h' : Pays loanId y t u) : Pays loanId (x + y) s u where
  paid := by rw [h'.paid, h.paid, add_assoc]
  due := h'.due.trans h.due
  sound := fun hs => h'.sound (h.sound hs)

/-- One installment is paid. -/
theorem modify {k : Id} {i : LoanInstallment} {a b : Cents} {status : InstallmentStatus}
    (hi : s.find? .loanInstallment k = some i) (ha : 0 ≤ a) (hai : a ≤ i.interestOutstanding)
    (hb : 0 ≤ b) (hbp : b ≤ i.principalOutstanding) :
    Pays i.loanId (a + b) s (s.modify .loanInstallment k
      (AllocationUpdate.apply ⟨k, toNumber (i.interestPaid + a), toNumber (i.principalPaid + b),
        status⟩)) := by
  have hpaid : ∀ j : LoanInstallment, AllocationUpdate.apply ⟨k, toNumber (i.interestPaid + a),
      toNumber (i.principalPaid + b), status⟩ j =
        { j with interestPaid := i.interestPaid + a, principalPaid := i.principalPaid + b, status } := by
    intro j
    unfold AllocationUpdate.apply
    rw [ofNumber_toNumber, ofNumber_toNumber]
  constructor
  · rw [Db.paidTotal, Db.table_modify_self, OrderedMap.total_modify_of_some hi, hpaid]
    simp only [if_true, LoanInstallment.paid, Db.paidTotal]
    ring
  · rw [Db.dueTotal, Db.table_modify_self, OrderedMap.total_modify_of_some hi, hpaid]
    simp only [LoanInstallment.due, sub_self, add_zero, Db.dueTotal]
  · intro hs k' j hj hl
    rw [Db.find?_modify] at hj
    by_cases hk : k' = k
    · rw [if_pos hk, hk, hi, Option.map_some, hpaid] at hj
      have hrow := Option.some.inj hj
      subst hrow
      have hsound := hs k i hi rfl
      have h₁ := hsound.interest_nonneg
      have h₂ := hsound.principal_nonneg
      unfold LoanInstallment.interestOutstanding at hai
      unfold LoanInstallment.principalOutstanding at hbp
      constructor
      · show 0 ≤ i.interestPaid + a
        linarith
      · show i.interestPaid + a ≤ i.interestDue
        linarith
      · show 0 ≤ i.principalPaid + b
        linarith
      · show i.principalPaid + b ≤ i.principalDue
        linarith
    · rw [if_neg hk] at hj
      exact hs k' j hj hl

/-- An installment of another loan is written. -/
theorem modify_other {k : Id} (hk : ∀ i, s.find? .loanInstallment k = some i → i.loanId ≠ loanId)
    (u : AllocationUpdate) : Pays loanId 0 s (s.modify .loanInstallment k u.apply) := by
  have htotal : ∀ f : LoanInstallment → Cents,
      ((s.table .loanInstallment).modify k u.apply).total
          (fun _ i => if i.loanId = loanId then f i else 0) =
        (s.table .loanInstallment).total fun _ i => if i.loanId = loanId then f i else 0 := by
    intro f
    rw [OrderedMap.total_modify]
    cases hi : (s.table .loanInstallment).get? k with
    | none => exact add_zero _
    | some i =>
      have hne := hk i hi
      rw [Option.elim_some, (u.apply_keeps i).1, if_neg hne, if_neg hne, sub_self, add_zero]
  constructor
  · rw [Db.paidTotal, Db.table_modify_self, htotal, add_zero]
    rfl
  · rw [Db.dueTotal, Db.table_modify_self, htotal]
    rfl
  · intro hs k' j hj hl
    rw [Db.find?_modify] at hj
    by_cases hk' : k' = k
    · rw [if_pos hk', hk'] at hj
      obtain ⟨i, hi, rfl⟩ := Option.map_eq_some_iff.mp hj
      exact absurd hl (hk i hi)
    · rw [if_neg hk'] at hj
      exact hs k' j hj hl

/-- Installments of another loan are written. -/
theorem foldl_other {us : List AllocationUpdate}
    (hus : ∀ u ∈ us, ∀ i, s.find? .loanInstallment u.id = some i → i.loanId ≠ loanId) :
    Pays loanId 0 s (us.foldl (fun s u => s.modify .loanInstallment u.id u.apply) s) := by
  induction us generalizing s with
  | nil => exact .zero loanId s
  | cons u us ih =>
    have hfirst := modify_other (hus u (List.mem_cons_self ..)) u
    have hkept : ∀ u' ∈ us, ∀ i, (s.modify .loanInstallment u.id u.apply).find? .loanInstallment
        u'.id = some i → i.loanId ≠ loanId := by
      intro u' hu' i hi
      have hbefore := hus u' (List.mem_cons_of_mem u hu')
      rw [Db.find?_modify] at hi
      split at hi
      · obtain ⟨j, hj, rfl⟩ := Option.map_eq_some_iff.mp hi
        exact hbefore j hj
      · exact hbefore i hi
    exact hfirst.trans (ih hkept)

end Pays

/-- The allocation writes the installments it is given. -/
theorem mem_allocateRepayment {insts : List InstallmentState} {x : ℚ} {u : AllocationUpdate}
    (h : u ∈ allocateRepayment insts x) : ∃ st ∈ insts, st.id = u.id := by
  have hlater : ∀ {st : InstallmentState} {rest : List InstallmentState},
      (∃ st' ∈ rest, st'.id = u.id) → ∃ st' ∈ st :: rest, st'.id = u.id := by
    intro st rest hst
    obtain ⟨st', hst', hid⟩ := hst
    exact ⟨st', List.mem_cons_of_mem st hst', hid⟩
  fun_induction allocateRepayment insts x with
  | case1 => exact absurd h List.not_mem_nil
  | case2 => exact absurd h List.not_mem_nil
  | case3 _ _ _ _ _ _ _ ih => exact hlater (ih h)
  | case4 st _ _ _ _ _ _ _ _ _ _ _ _ _ _ ih =>
    rcases List.mem_cons.mp h with rfl | h
    · exact ⟨st, List.mem_cons_self .., rfl⟩
    · exact hlater (ih h)
  | case5 _ _ _ _ _ _ _ _ _ _ _ _ ih => exact hlater (ih h)

/-- The allocation pays the smaller of the amount and of what is outstanding. -/
theorem pays_allocateRepayment {loanId : Id} {insts : List (Id × LoanInstallment)} {s : Db}
    {c : Cents} (hc : 0 ≤ c) (hnodup : (insts.map Prod.fst).Nodup)
    (hfind : ∀ e ∈ insts, s.find? .loanInstallment e.1 = some e.2 ∧ e.2.loanId = loanId)
    (hsound : ∀ e ∈ insts, e.2.Sound) :
    Pays loanId (min c (insts.map fun e => e.2.outstanding).sum) s
      ((allocateRepayment (insts.map installmentState) (toNumber c)).foldl
        (fun s u => s.modify .loanInstallment u.id u.apply) s) := by
  induction insts generalizing s c with
  | nil =>
    rw [List.map_nil, List.map_nil, List.sum_nil, min_eq_right hc]
    exact .zero loanId s
  | cons e rest ih =>
    rw [List.map_cons, List.nodup_cons] at hnodup
    have hrest : 0 ≤ (rest.map fun e => e.2.outstanding).sum := by
      apply List.sum_nonneg
      intro x hx
      obtain ⟨e', he', rfl⟩ := List.mem_map.mp hx
      exact (hsound e' (List.mem_cons_of_mem e he')).outstanding_nonneg
    have he := hsound e (List.mem_cons_self ..)
    have hsound' : ∀ e' ∈ rest, e'.2.Sound := fun e' he' => hsound e' (List.mem_cons_of_mem e he')
    have hfind' := fun e' he' => hfind e' (List.mem_cons_of_mem e he')
    obtain ⟨hentry, hloan⟩ := hfind e (List.mem_cons_self ..)
    rw [List.map_cons, List.map_cons, List.sum_cons]
    rcases hc.eq_or_lt with hzero | hpos
    · rw [← hzero, toNumber_zero, min_eq_left (add_nonneg he.outstanding_nonneg hrest),
        allocateRepayment, if_pos le_rfl]
      exact .zero loanId s
    rcases allocateRepayment_cons he hpos (rest.map installmentState) with
      ⟨hnothing, heq⟩ | ⟨a, b, status, ha, hai, hb, hbp, hpays, heq⟩
    · rw [heq, hnothing, zero_add]
      exact ih hc hnodup.2 hfind' hsound'
    · rw [heq, List.foldl_cons]
      have hfirst := @Pays.modify s e.1 e.2 a b status hentry ha hai hb hbp
      rw [hloan] at hfirst
      have hleft : 0 ≤ c - (a + b) := by
        rw [hpays]
        exact sub_nonneg.mpr (min_le_left ..)
      have hkept : ∀ e' ∈ rest, (s.modify .loanInstallment e.1 (AllocationUpdate.apply
          ⟨e.1, toNumber (e.2.interestPaid + a), toNumber (e.2.principalPaid + b), status⟩)).find?
            .loanInstallment e'.1 = some e'.2 ∧ e'.2.loanId = loanId := by
        intro e' he'
        have hne : e'.1 ≠ e.1 := by
          intro h
          apply hnodup.1
          rw [← h]
          exact List.mem_map_of_mem he'
        rw [Db.find?_modify, if_neg hne]
        exact hfind' e' he'
      have hsum := hfirst.trans (ih hleft hnodup.2 hkept hsound')
      have hmin : a + b + min (c - (a + b)) (rest.map fun e => e.2.outstanding).sum =
          min c (e.2.outstanding + (rest.map fun e => e.2.outstanding).sum) := by
        rw [hpays]
        exact min_add_min_sub hrest c
      rw [hmin] at hsum
      exact hsum

end NexusEfos
