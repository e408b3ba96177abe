/-
The months that the scheduler posts: `runSavingsInterestPostingAllInstitutions` of
`routes/savings-interest.routes.ts`, on the first of a month after the accrual of that day.

Along the schedule (`InterestRun`) a month bears the interest of all its days if the posting of its
first day takes up nothing, and the interest of its first day otherwise.
-/
import NexusEfos.Savings.MonthlyInterest

namespace NexusEfos

open Proc

/-! ## What a posting keeps -/

/-- The interest of an account that no posting has taken up. -/
def Db.dueInterest (s : Db) (accountId institutionId : Id) : ℚ :=
  round2 ((s.unpostedAccruals accountId institutionId).map fun a =>
    toNumber a.2.amountAccrued).sum

/-- The account earns as it did, and its balances before a time are what they were. -/
structure Db.PostedAt (a : Id) (now : DateTime) (s t : Db) : Prop where
  same : s.SameInterest a t
  balances : ∀ date, date < now → t.balanceAsOf a date = s.balanceAsOf a date

section Posting

variable {a : Id} {s t u : Db} {now : DateTime}

namespace Db.PostedAt

theorem refl (s : Db) : s.PostedAt a now s := ⟨.refl s, fun _ _ => rfl⟩

theorem trans (h : s.PostedAt a now t) (h' : t.PostedAt a now u) : s.PostedAt a now u :=
  ⟨h.same.trans h'.same, fun date hdate => (h'.balances date hdate).trans (h.balances date hdate)⟩

theorem of_agree (h : s.Agree [.savingsAccount, .productVersion, .interestRateTier,
    .savingsTransaction] t) : s.PostedAt a now t := by
  refine ⟨.of_find?_eq (h.find? (by decide) a) fun m hm => h m (by revert m; decide), ?_⟩
  intro date _
  unfold Db.balanceAsOf
  rw [h .savingsTransaction (by decide)]

/-- A transaction of the posting is no part of an earlier balance. -/
theorem insert {row : SavingsTransaction} (hrow : row.createdAt = now) :
    s.PostedAt a now (s.insert .savingsTransaction row) := by
  refine ⟨.of_find?_eq (Db.find?_insert_of_ne (by decide) ..) (.insert (by decide) s _), ?_⟩
  intro date hdate
  unfold Db.balanceAsOf
  rw [Db.table_insert_self, OrderedMap.values_create, List.filter_append,
    List.filter_singleton]
  have hlate : ¬ (row.accountId = a ∧ row.createdAt ≤ date) := by
    rw [hrow]
    exact fun h => absurd h.2 (not_le_of_gt hdate)
  rw [decide_eq_false hlate]
  simp

end Db.PostedAt

theorem postInterestForAccount_postedAt (now : DateTime) (accountId institutionId : Id)
    (postedById : Option Id) (batchId : Option String) :
    (postInterestForAccount now accountId institutionId postedById batchId).Every
      (Db.PostedAt a now) := by
  have hquiet : ∀ {α : Type} {p : Handler α}, Quiet [.savingsAccount, .productVersion,
      .interestRateTier, .savingsTransaction] p → p.Every (Db.PostedAt a now) :=
    fun hp => Every.imp hp fun _ _ h => .of_agree h
  refine (hquiet (.query _)).bind fun unposted => ?_
  split
  · next first last _ _ =>
    dsimp only
    split
    · exact hquiet (.pure _)
    · refine (hquiet (.findUniqueOrThrow _ _)).bind fun account => ?_
      refine Every.bind (.transaction .refl .trans _ ?_) fun _ => hquiet (.pure _)
      refine Every.bind ⟨fun s => .insert rfl, fun _ => trivial⟩ fun txn => ?_
      refine Every.bind ⟨fun s => ?_, fun _ => trivial⟩ fun _ => ?_
      · have hupdate : s.PostedAt a now (s.modify .savingsAccount accountId
            (SavingsAccount.setBalance (round2 (toNumber account.balance +
              round2 (unposted.map fun a => toNumber a.2.amountAccrued).sum)))) := by
          refine ⟨.modify s a accountId fun _ => ⟨rfl, rfl, rfl, rfl, rfl, rfl⟩, fun _ _ => ?_⟩
          unfold Db.balanceAsOf
          rw [Db.table_modify_of_ne (by decide)]
        cases hrow : s.find? .savingsAccount accountId with
        | some row => simpa only [hrow] using hupdate
        | none => simpa only [hrow] using Db.PostedAt.refl s
      · refine (hquiet (.create (by decide) _)).bind fun postingId => ?_
        exact (hquiet (.updateMany (by decide) _ _)).bind fun _ => hquiet (.pure _)
  · exact hquiet (.pure _)

theorem runSavingsInterestPosting_postedAt (now : DateTime) (institutionIds : List Id)
    (batchId : String) :
    (runSavingsInterestPosting now institutionIds batchId).Every (Db.PostedAt a now) := by
  refine Every.bind (.mapEach fun institutionId _ => ?_) fun _ => trivial
  refine Every.bind ⟨fun s => .refl s, fun _ => trivial⟩ fun accounts => ?_
  exact Every.bind (.mapEach fun accountId _ => postInterestForAccount_postedAt ..) fun _ => trivial

end Posting

/-! ## The rows that a posting takes up -/

section Taken

variable {a b institutionId : Id} {s t u : Db} {now : DateTime} {account : SavingsAccount}
  {first : ℤ} {amount : Cents}

/-- A row is among those that a posting takes up. -/
theorem mem_unpostedAccruals_iff {id : Id} {row : SavingsInterestAccrual}
    (hrow : s.find? .savingsInterestAccrual id = some row) :
    id ∈ (s.unpostedAccruals b institutionId).map Prod.fst ↔
      row.accountId = b ∧ row.institutionId = institutionId ∧ row.posted = false := by
  unfold Db.unpostedAccruals
  rw [List.mem_map]
  constructor
  · rintro ⟨e, he, rfl⟩
    rw [List.mem_insertionSort, List.mem_filter, decide_eq_true_eq] at he
    have hsame : s.find? .savingsInterestAccrual e.1 = some e.2 :=
      OrderedMap.get?_eq_some.mpr he.1
    rw [hrow, Option.some.injEq] at hsame
    rw [hsame]
    exact he.2
  · intro h
    refine ⟨(id, row), ?_, rfl⟩
    rw [List.mem_insertionSort, List.mem_filter, decide_eq_true_eq]
    exact ⟨OrderedMap.get?_eq_some.mp hrow, h⟩

/-- The row is taken up by a posting. -/
def SavingsInterestAccrual.takenUpBy (postingId : Id) (row : SavingsInterestAccrual) :
    SavingsInterestAccrual :=
  { row with posted := true, postingId := some postingId }

/-- A posting does nothing where nothing is due, and otherwise takes up what has not been posted. -/
theorem run_postInterestForAccount_cases {postedById : Option Id} {batchId : Option String}
    {r : Option (Id × SavingsInterestPosting)}
    (h : (postInterestForAccount now b institutionId postedById batchId).run s = (.ok r, t)) :
    t = s ∧ s.dueInterest b institutionId ≤ 0 ∨
      0 < s.dueInterest b institutionId ∧ ∃ postingId,
        t.table .savingsInterestAccrual =
          (s.modifyAll .savingsInterestAccrual fun id row =>
            if id ∈ (s.unpostedAccruals b institutionId).map Prod.fst then
              row.takenUpBy postingId
            else row).table .savingsInterestAccrual := by
  have hzero : round2 (0 : ℚ) = 0 := by
    rw [← toNumber_zero, round2_toNumber]
  have h := run_query_bind h
  cases hhead : (s.unpostedAccruals b institutionId).head? with
  | none =>
    rw [hhead] at h
    left
    refine ⟨(Prod.mk.inj h).2.symm, ?_⟩
    unfold Db.dueInterest
    rw [List.head?_eq_none_iff.mp hhead, List.map_nil, List.sum_nil, hzero]
  | some first =>
    cases hlast : (s.unpostedAccruals b institutionId).getLast? with
    | none =>
      rw [List.getLast?_eq_none_iff.mp hlast] at hhead
      cases hhead
    | some last =>
      rw [hhead, hlast] at h
      dsimp only at h
      by_cases htotal : s.dueInterest b institutionId ≤ 0
      · rw [Db.dueInterest] at htotal
        rw [if_pos htotal] at h
        exact .inl ⟨(Prod.mk.inj h).2.symm, htotal⟩
      · refine .inr ⟨lt_of_not_ge htotal, ?_⟩
        rw [Db.dueInterest] at htotal
        rw [if_neg htotal] at h
        obtain ⟨account, s₁, hfound, h⟩ := run_bind_eq_ok h
        obtain ⟨-, rfl⟩ := run_findUniqueOrThrow_eq_ok hfound
        obtain ⟨posting, s₂, htransaction, hend⟩ := run_bind_eq_ok h
        obtain ⟨-, rfl⟩ := Prod.mk.inj hend
        obtain ⟨row, -, -, -, hagree⟩ :=
          run_postInterestInTx_takesUp (Proc.run_transaction_eq_ok htransaction)
        refine ⟨s₁.nextId .savingsInterestPosting, ?_⟩
        rw [hagree _ (by decide), Db.takeUp, Db.table_modifyAll_self, Db.table_modifyAll_self,
          Db.table_insert_of_ne (by decide)]
        rfl

/-- The row of a date after a posting. -/
theorem accrualOf_of_taken {postingId : Id} (h : t.table .savingsInterestAccrual =
    (s.modifyAll .savingsInterestAccrual fun id row =>
      if id ∈ (s.unpostedAccruals b institutionId).map Prod.fst then
        row.takenUpBy postingId
      else row).table .savingsInterestAccrual) (a : Id) (date : DateTime) :
    t.accrualOf a date = (s.accrualOf a date).map fun e =>
      if e.2.accountId = b ∧ e.2.institutionId = institutionId ∧ e.2.posted = false then
        (e.1, e.2.takenUpBy postingId)
      else e := by
  have hrows : t.accrualOf a date =
      (s.modifyAll .savingsInterestAccrual fun id row =>
        if id ∈ (s.unpostedAccruals b institutionId).map Prod.fst then
          row.takenUpBy postingId
        else row).accrualOf a date := by
    unfold Db.accrualOf
    rw [h]
  rw [hrows, accrualOf_modifyAll]
  · cases hfound : s.accrualOf a date with
    | none => rfl
    | some e =>
      have hmem : e.1 ∈ (s.unpostedAccruals b institutionId).map Prod.fst ↔
          e.2.accountId = b ∧ e.2.institutionId = institutionId ∧ e.2.posted = false :=
        mem_unpostedAccruals_iff (accrualOf_eq_some hfound).1
      rw [Option.map_some, Option.map_some]
      simp only [hmem]
      split
      · rfl
      · rfl
  · intro id row
    split
    · exact ⟨rfl, rfl⟩
    · exact ⟨rfl, rfl⟩

/-- Elements that are dropped before and after do not matter. -/
theorem filter_map_of_dropped {α : Type} {p : α → Bool} {g : α → α} {xs : List α}
    (h : ∀ x ∈ xs, g x = x ∨ p x = false ∧ p (g x) = false) :
    (xs.map g).filter p = xs.filter p := by
  induction xs with
  | nil => rfl
  | cons x xs ih =>
    rw [List.forall_mem_cons] at h
    rw [List.map_cons, List.filter_cons, List.filter_cons, ih h.2]
    obtain hsame | ⟨hbefore, hafter⟩ := h.1
    · rw [hsame]
    · rw [hbefore, hafter, if_neg Bool.false_ne_true, if_neg Bool.false_ne_true]

/-- What another posting takes up is none of the rows of an account and institution. -/
theorem unpostedAccruals_of_taken {postingId : Id} (h : t.table .savingsInterestAccrual =
    (s.modifyAll .savingsInterestAccrual fun id row =>
      if id ∈ (s.unpostedAccruals b institutionId).map Prod.fst then
        row.takenUpBy postingId
      else row).table .savingsInterestAccrual) {a i : Id}
    (hother : ¬ (a = b ∧ i = institutionId)) :
    t.unpostedAccruals a i = s.unpostedAccruals a i := by
  have htaken : ∀ e ∈ (s.table .savingsInterestAccrual).entries,
      e.1 ∈ (s.unpostedAccruals b institutionId).map Prod.fst →
        ¬ (e.2.accountId = a ∧ e.2.institutionId = i) := by
    intro e he hmem hsame
    have hrow : s.find? .savingsInterestAccrual e.1 = some e.2 := OrderedMap.get?_eq_some.mpr he
    obtain ⟨hb, hinstitution, -⟩ := (mem_unpostedAccruals_iff hrow).mp hmem
    exact hother ⟨hsame.1.symm.trans hb, hsame.2.symm.trans hinstitution⟩
  have hrows : (t.table .savingsInterestAccrual).entries.filter (fun e =>
        decide (e.2.accountId = a ∧ e.2.institutionId = i ∧ e.2.posted = false)) =
      (s.table .savingsInterestAccrual).entries.filter fun e =>
        decide (e.2.accountId = a ∧ e.2.institutionId = i ∧ e.2.posted = false) := by
    rw [h, Db.table_modifyAll_self]
    show ((s.table .savingsInterestAccrual).entries.map fun e => (e.1, _)).filter _ = _
    apply filter_map_of_dropped
    intro e he
    dsimp only
    by_cases hmem : e.1 ∈ (s.unpostedAccruals b institutionId).map Prod.fst
    · have hnot := htaken e he hmem
      rw [if_pos hmem]
      refine .inr ⟨decide_eq_false fun hrow => hnot ⟨hrow.1, hrow.2.1⟩, ?_⟩
      exact decide_eq_false fun hrow => hnot ⟨hrow.1, hrow.2.1⟩
    · rw [if_neg hmem]
      exact .inl rfl
  unfold Db.unpostedAccruals
  rw [hrows]

/-- Rows stay, with their interest, and those that have been posted stay posted. -/
def Db.RowsStay (a : Id) (s t : Db) : Prop :=
  ∀ date, Option.Rel (fun e e' : Id × SavingsInterestAccrual =>
    e'.2.institutionId = e.2.institutionId ∧ e'.2.amountAccrued = e.2.amountAccrued ∧
      (e.2.posted = true → e'.2.posted = true)) (s.accrualOf a date) (t.accrualOf a date)

theorem Db.RowsStay.refl (s : Db) : s.RowsStay a s := by
  intro date
  cases s.accrualOf a date with
  | some e => exact .some ⟨rfl, rfl, id⟩
  | none => exact .none

theorem Db.RowsStay.trans (h : s.RowsStay a t) (h' : t.RowsStay a u) : s.RowsStay a u := by
  intro date
  have hfirst := h date
  have hsecond := h' date
  revert hfirst hsecond
  generalize s.accrualOf a date = x
  generalize t.accrualOf a date = y
  generalize u.accrualOf a date = z
  intro hfirst hsecond
  cases hfirst with
  | some hxy =>
    cases hsecond with
    | some hyz =>
      exact .some ⟨hyz.1.trans hxy.1, hyz.2.1.trans hxy.2.1, fun hposted => hyz.2.2 (hxy.2.2 hposted)⟩
  | none => exact hsecond

theorem Db.RowsStay.monthRow (h : s.RowsStay a t) {posted : Bool}
    (hrow : s.MonthRow a account first amount posted) :
    ∃ posted', t.MonthRow a account first amount posted' ∧ (posted = true → posted' = true) := by
  obtain ⟨e, he, hinstitution, hposted, hamount⟩ := hrow
  have hrel := h (first * msPerDay)
  rw [he] at hrel
  cases hafter : t.accrualOf a (first * msPerDay) with
  | some e' =>
    rw [hafter] at hrel
    obtain ⟨hinst, hsame, hstays⟩ := Option.rel_some_some.mp hrel
    exact ⟨e'.2.posted, ⟨e', hafter, hinst.trans hinstitution, rfl, hsame.trans hamount⟩,
      fun h => hstays (hposted.trans h)⟩
  | none =>
    rw [hafter] at hrel
    exact absurd hrel Option.not_rel_some_none

theorem postInterestForAccount_rowsStay {postedById : Option Id} {batchId : Option String}
    {r : Option (Id × SavingsInterestPosting)}
    (h : (postInterestForAccount now b institutionId postedById batchId).run s = (.ok r, t)) :
    s.RowsStay a t := by
  obtain ⟨rfl, -⟩ | ⟨-, postingId, htaken⟩ := run_postInterestForAccount_cases h
  · exact .refl t
  · intro date
    rw [accrualOf_of_taken htaken]
    cases s.accrualOf a date with
    | none => exact .none
    | some e =>
      rw [Option.map_some]
      split
      · exact .some ⟨rfl, rfl, fun _ => rfl⟩
      · exact .some ⟨rfl, rfl, id⟩

/-- What holds of the rows of one account, along the postings of all accounts. -/
theorem run_postAllForInstitution_induction {I : Db → Prop} {postedById : Option Id}
    {batchId : Option String} {r : ℕ × ℚ}
    (hI : ∀ b u u' x, I u →
      (postInterestForAccount now b institutionId postedById batchId).run u = (.ok x, u') → I u')
    (hs : I s)
    (h : (postAllForInstitution now institutionId postedById batchId).run s = (.ok r, t)) : I t := by
  have h := run_query_bind h
  obtain ⟨results, u, hall, hend⟩ := run_bind_eq_ok h
  obtain ⟨-, rfl⟩ := Prod.mk.inj hend
  exact (Proc.run_mapEach_eq_ok (Q := fun _ _ => True)
    (fun b _ u x u' hu hrun => ⟨hI b u u' x hu hrun, trivial⟩) hs hall).1

theorem run_runSavingsInterestPosting_induction {I : Db → Prop} {institutionIds : List Id}
    {batchId : String} {r : ℕ × ℚ}
    (hI : ∀ b i u u' x, I u →
      (postInterestForAccount now b i none (some batchId)).run u = (.ok x, u') → I u')
    (hs : I s)
    (h : (runSavingsInterestPosting now institutionIds batchId).run s = (.ok r, t)) : I t := by
  obtain ⟨results, u, hall, hend⟩ := run_bind_eq_ok h
  obtain ⟨-, rfl⟩ := Prod.mk.inj hend
  exact (Proc.run_mapEach_eq_ok (Q := fun _ _ => True)
    (fun i _ u x u' hu hrun => ⟨run_postAllForInstitution_induction
      (fun b => hI b i) hu hrun, trivial⟩) hs hall).1

theorem runSavingsInterestPosting_rowsStay {institutionIds : List Id} {batchId : String}
    {r : ℕ × ℚ} (h : (runSavingsInterestPosting now institutionIds batchId).run s = (.ok r, t)) :
    s.RowsStay a t :=
  run_runSavingsInterestPosting_induction (I := fun u => s.RowsStay a u)
    (fun _ _ _ _ _ hu hrun => hu.trans (postInterestForAccount_rowsStay hrun)) (.refl s) h

/-- The month is open, and the account has the same interest due as before. -/
def Db.StillDue (a : Id) (account : SavingsAccount) (first : ℤ) (amount : Cents) (s t : Db) : Prop :=
  t.unpostedAccruals a account.institutionId = s.unpostedAccruals a account.institutionId ∧
    t.MonthRow a account first amount false

/-- A posting takes up the open month, if it is the one of the account and something is due. -/
theorem Db.StillDue.posting (hu : s.StillDue a account first amount u) {postedById : Option Id}
    {batchId : Option String} {r : Option (Id × SavingsInterestPosting)}
    (h : (postInterestForAccount now b institutionId postedById batchId).run u = (.ok r, t)) :
    s.StillDue a account first amount t ∧
        (b = a ∧ institutionId = account.institutionId →
          s.dueInterest a account.institutionId ≤ 0) ∨
      0 < s.dueInterest a account.institutionId ∧ t.MonthRow a account first amount true := by
  have hsame : u.dueInterest a account.institutionId = s.dueInterest a account.institutionId := by
    unfold Db.dueInterest
    rw [hu.1]
  obtain ⟨rfl, hdue⟩ | ⟨hdue, postingId, htaken⟩ := run_postInterestForAccount_cases h
  · left
    refine ⟨hu, ?_⟩
    rintro ⟨rfl, rfl⟩
    rwa [hsame] at hdue
  · obtain ⟨hunposted, e, he, hinstitution, hposted, hamount⟩ := hu
    have hrow := accrualOf_of_taken htaken a (first * msPerDay)
    rw [he, Option.map_some] at hrow
    by_cases hself : a = b ∧ account.institutionId = institutionId
    · obtain ⟨rfl, rfl⟩ := hself
      rw [hsame] at hdue
      rw [if_pos ⟨(accrualOf_eq_some he).2.1, hinstitution, hposted⟩] at hrow
      exact .inr ⟨hdue, _, hrow, hinstitution, rfl, hamount⟩
    · left
      rw [if_neg] at hrow
      · refine ⟨⟨(unpostedAccruals_of_taken htaken hself).trans hunposted, e, hrow, hinstitution,
          hposted, hamount⟩, fun heq => absurd ⟨heq.1.symm, heq.2.symm⟩ hself⟩
      · rintro ⟨hb, hi, -⟩
        exact hself ⟨(accrualOf_eq_some he).2.1.symm.trans hb, hinstitution.symm.trans hi⟩

/-- Where nothing is due, the month stays open. -/
theorem monthRow_of_posting_of_nothing_due {institutionIds : List Id} {batchId : String} {r : ℕ × ℚ}
    (hdue : s.dueInterest a account.institutionId ≤ 0)
    (hrow : s.MonthRow a account first amount false)
    (h : (runSavingsInterestPosting now institutionIds batchId).run s = (.ok r, t)) :
    t.MonthRow a account first amount false := by
  have hend := run_runSavingsInterestPosting_induction (I := s.StillDue a account first amount)
    (fun b i u u' x hu hrun => by
      obtain ⟨hstill, -⟩ | ⟨hpositive, -⟩ := hu.posting hrun
      · exact hstill
      · exact absurd hdue (not_le_of_gt hpositive))
    ⟨rfl, hrow⟩ h
  exact hend.2

theorem posted_of_posting {institutionIds : List Id} {batchId : String} {r : ℕ × ℚ}
    (hdue : 0 < s.dueInterest a account.institutionId)
    (hinstitution : account.institutionId ∈ institutionIds)
    (hrow : s.MonthRow a account first amount false)
    (h : (runSavingsInterestPosting now institutionIds batchId).run s = (.ok r, t)) :
    t.MonthRow a account first amount true := by
  have hposted : ∀ {b i u u' x}, u.MonthRow a account first amount true →
      (postInterestForAccount now b i none (some batchId)).run u = (.ok x, u') →
        u'.MonthRow a account first amount true := by
    intro b i u u' x hu hrun
    obtain ⟨posted', hafter, hstays⟩ := (postInterestForAccount_rowsStay hrun).monthRow hu
    rwa [hstays rfl] at hafter
  have hstep : ∀ {b i u u' x},
      u.MonthRow a account first amount true ∨ s.StillDue a account first amount u →
      (postInterestForAccount now b i none (some batchId)).run u = (.ok x, u') →
        u'.MonthRow a account first amount true ∨ s.StillDue a account first amount u' := by
    rintro b i u u' x (hu | hu) hrun
    · exact .inl (hposted hu hrun)
    · obtain ⟨hstill, -⟩ | ⟨-, hafter⟩ := hu.posting hrun
      · exact .inr hstill
      · exact .inl hafter
  obtain ⟨results, u, hall, hend⟩ := run_bind_eq_ok h
  obtain ⟨-, rfl⟩ := Prod.mk.inj hend
  have hreached := Proc.run_mapEach_reaches
    (I := fun u => u.MonthRow a account first amount true ∨ s.StillDue a account first amount u)
    (P := fun u => u.MonthRow a account first amount true)
    (fun i _ u x u' hu hrun => run_postAllForInstitution_induction
      (I := fun u => u.MonthRow a account first amount true ∨ s.StillDue a account first amount u)
      (fun b v v' y hv hv' => hstep hv hv') hu hrun)
    (fun i _ u x u' _ hu hrun => run_postAllForInstitution_induction
      (I := fun u => u.MonthRow a account first amount true)
      (fun b v v' y hv hv' => hposted hv hv') hu hrun)
    hinstitution ?_ (.inr ⟨rfl, hrow⟩) hall
  · exact hreached.2
  · -- The turn of the institution, in which the account has its own.
    rintro v x v' (hv | hv) hrun
    · exact run_postAllForInstitution_induction
        (I := fun u => u.MonthRow a account first amount true)
        (fun b w w' y hw hw' => hposted hw hw') hv hrun
    · obtain ⟨hunposted, e, he, hinst, hopen, hamount⟩ := hv
      have hmem : a ∈ v.accountsWithUnposted account.institutionId := by
        unfold Db.accountsWithUnposted
        rw [List.mem_dedup, List.mem_map]
        refine ⟨e, ?_, (accrualOf_eq_some he).2.1⟩
        rw [List.mem_filter, decide_eq_true_eq]
        exact ⟨OrderedMap.get?_eq_some.mp (accrualOf_eq_some he).1, hinst, hopen⟩
      have hrun := run_query_bind hrun
      obtain ⟨rows, w, hrows, hlast⟩ := run_bind_eq_ok hrun
      obtain ⟨-, rfl⟩ := Prod.mk.inj hlast
      have hturn := Proc.run_mapEach_reaches
        (I := fun u =>
          u.MonthRow a account first amount true ∨ s.StillDue a account first amount u)
        (P := fun u => u.MonthRow a account first amount true)
        (fun b _ w y w' hw hw' => hstep hw hw') (fun b _ w y w' _ hw hw' => hposted hw hw') hmem
        (fun w y w' hw hw' => by
          obtain hw | hw := hw
          · exact hposted hw hw'
          · obtain ⟨-, hnothing⟩ | ⟨-, hafter⟩ := hw.posting hw'
            · exact absurd (hnothing ⟨rfl, rfl⟩) (not_le_of_gt hdue)
            · exact hafter)
        (.inr ⟨hunposted, e, he, hinst, hopen, hamount⟩) hrows
      exact hturn.2

end Taken

/-! ## The schedule -/

/-- Two o'clock of a day. -/
def twoOClock (day : ℤ) : DateTime := day * msPerDay + 2 * msPerHour

/-- Whatever else happens: the account earns as it did, its accruals are left to the scheduler, and
no transaction is dated back to the beginning of a day. -/
structure Db.OtherBusiness (a : Id) (day : ℤ) (s t : Db) : Prop where
  same : s.SameInterest a t
  accruals : ∀ date, t.accrualOf a date = s.accrualOf a date
  balances : ∀ d, d ≤ day → t.balanceAsOf a (d * msPerDay) = s.balanceAsOf a (d * msPerDay)

/-- The accrual of a day, after what else has happened since the last one. -/
def AccrualDay (a : Id) (day : ℤ) (s t : Db) : Prop :=
  ∃ u n, s.OtherBusiness a (day - 1) u ∧
    (runSavingsInterestAccrual (oneOClock day)).run u = (.ok n, t)

/-- A day of the schedule: the accrual, and on the first of a month the posting. -/
inductive InterestDay (a : Id) (institutionIds : List Id) (day : ℤ) (s : Db) : Db → Prop
  | ordinary {t : Db} (hday : dayOfMonth day ≠ 1) (haccrual : AccrualDay a day s t) :
    InterestDay a institutionIds day s t
  | first {u v t : Db} {batchId : String} {r : ℕ × ℚ} (hday : dayOfMonth day = 1)
    (haccrual : AccrualDay a day s u) (hother : u.OtherBusiness a day v)
    (hposting : (runSavingsInterestPosting (twoOClock day) institutionIds batchId).run v =
      (.ok r, t)) : InterestDay a institutionIds day s t

/-- A run of the scheduler from a day to another. -/
inductive InterestRun (a : Id) (institutionIds : List Id) (day₀ : ℤ) (s₀ : Db) : ℤ → Db → Prop
  | start : InterestRun a institutionIds day₀ s₀ day₀ s₀
  | day {day : ℤ} {s t : Db} (h : InterestRun a institutionIds day₀ s₀ day s)
    (hday : InterestDay a institutionIds day s t) :
    InterestRun a institutionIds day₀ s₀ (day + 1) t

/-- A run of the scheduler through a month: what the posting of its first day finds, and what that of
the next month leaves. -/
def InterestMonth (a : Id) (institutionIds : List Id) (day₀ : ℤ) (s₀ : Db) (k : ℤ) (v t : Db) :
    Prop :=
  ∃ s u batchId r w s', InterestRun a institutionIds day₀ s₀ (firstOfMonth k) s ∧
    AccrualDay a (firstOfMonth k) s u ∧ u.OtherBusiness a (firstOfMonth k) v ∧
    (runSavingsInterestPosting (twoOClock (firstOfMonth k)) institutionIds batchId).run v =
      (.ok r, w) ∧
    InterestRun a institutionIds (firstOfMonth k + 1) w (firstOfMonth (k + 1)) s' ∧
    InterestDay a institutionIds (firstOfMonth (k + 1)) s' t

/-- The interest that has been posted for a month comes from the balances of all its days. -/
def Db.CoversMonth (t : Db) (a : Id) (account : SavingsAccount) (version : Id × ProductVersion)
    (k : ℤ) : Prop :=
  ∀ e, t.accrualOf a (firstOfMonth k * msPerDay) = some e → e.2.posted = true →
    e.2.amountAccrued = t.monthlyInterest a account version
      (oneOClock (firstOfMonth (k + 1) - 1)) (firstOfMonth k) (firstOfMonth (k + 1) - 1)

section Schedule

variable {a : Id} {s t u v : Db} {account : SavingsAccount} {version : Id × ProductVersion}
  {institutionIds : List Id} {day : ℤ}

/-- The account earns as it did, and its opening balances up to a day are what they were. -/
structure Db.SameUpTo (a : Id) (day : ℤ) (s t : Db) : Prop where
  same : s.SameInterest a t
  balances : ∀ d, d ≤ day → t.balanceAsOf a (d * msPerDay) = s.balanceAsOf a (d * msPerDay)

namespace Db.SameUpTo

theorem refl (s : Db) : s.SameUpTo a day s := ⟨.refl s, fun _ _ => rfl⟩

theorem trans (h : s.SameUpTo a day t) (h' : t.SameUpTo a day u) : s.SameUpTo a day u :=
  ⟨h.same.trans h'.same, fun d hd => (h'.balances d hd).trans (h.balances d hd)⟩

theorem mono {day' : ℤ} (h : s.SameUpTo a day t) (hday : day' ≤ day) : s.SameUpTo a day' t :=
  ⟨h.same, fun d hd => h.balances d (hd.trans hday)⟩

theorem monthlyInterest {last : ℤ} (h : s.SameUpTo a day t) (hlast : last ≤ day)
    (account : SavingsAccount) (version : Id × ProductVersion) (now : DateTime) (first : ℤ) :
    t.monthlyInterest a account version now first last =
      s.monthlyInterest a account version now first last :=
  monthlyInterest_congr h.same (fun d hd => h.balances d (hd.trans hlast)) account version now

theorem of_dayAccrued (h : s.DayAccrued a day t) (d : ℤ) : s.SameUpTo a d t := by
  refine ⟨h.same, fun _ _ => ?_⟩
  unfold Db.balanceAsOf
  rw [h.transactions]

theorem of_posting {batchId : String} {r : ℕ × ℚ}
    (h : (runSavingsInterestPosting (twoOClock day) institutionIds batchId).run s = (.ok r, t)) :
    s.SameUpTo a day t := by
  have hposted := (runSavingsInterestPosting_postedAt (a := a) (twoOClock day) institutionIds
    batchId).run .refl .trans s
  rw [h] at hposted
  refine ⟨hposted.same, fun d hd => hposted.balances _ ?_⟩
  show (d * 86400000 : ℤ) < day * 86400000 + 2 * 3600000
  omega

end Db.SameUpTo

/-- The first of the month of a day is the day, or before it. -/
theorem firstOfMonth_monthOf_le (day : ℤ) : firstOfMonth (monthOf day) ≤ day :=
  (monthOf_eq_iff.mp rfl).1

/-- What the accrual of a day does, with what else has happened before. -/
theorem AccrualDay.spec (hs : s.EarnsMonthly a account version) (h : AccrualDay a day s t) :
    s.SameUpTo a (day - 1) t ∧
      (∀ date, date ≠ firstOfMonth (monthOf day) * msPerDay →
        t.accrualOf a date = s.accrualOf a date) ∧
      (∀ amount, s.MonthRow a account (firstOfMonth (monthOf day)) amount true →
        t.MonthRow a account (firstOfMonth (monthOf day)) amount true) ∧
      (s.MonthOpen a account (firstOfMonth (monthOf day)) →
        t.MonthRow a account (firstOfMonth (monthOf day))
          (t.monthlyInterest a account version (oneOClock day) (firstOfMonth (monthOf day)) day)
          false) := by
  obtain ⟨u, n, hother, hrun⟩ := h
  have hu := hs.of_same hother.same
  have haccrued := dayAccrued_of_accrual hu hrun
  refine ⟨?_, fun date hne => (haccrued.others date hne).trans (hother.accruals date), ?_, ?_⟩
  · have hbefore : s.SameUpTo a (day - 1) u := ⟨hother.same, hother.balances⟩
    exact hbefore.trans (.of_dayAccrued haccrued (day - 1))
  · rintro amount ⟨e, he, hrest⟩
    exact monthRow_posted_of_accrual hu ⟨e, (hother.accruals _).trans he, hrest⟩ hrun
  · intro hopen
    have hrow := monthRow_open_of_accrual hu
      (fun e he => hopen e ((hother.accruals _).symm.trans he)) hrun
    rwa [← haccrued.monthlyInterest] at hrow

/-- What a day of the schedule does. -/
theorem InterestDay.spec (hs : s.EarnsMonthly a account version)
    (h : InterestDay a institutionIds day s t) :
    s.SameUpTo a (day - 1) t ∧
      (∀ date, day * msPerDay < date → s.accrualOf a date = none → t.accrualOf a date = none) ∧
      (∀ first amount posted, first ≠ firstOfMonth (monthOf day) →
        s.MonthRow a account first amount posted → ∃ posted',
          t.MonthRow a account first amount posted' ∧ (posted = true → posted' = true)) := by
  have hlate : ∀ date, day * msPerDay < date → date ≠ firstOfMonth (monthOf day) * msPerDay := by
    rintro date hdate rfl
    have hfirst := firstOfMonth_monthOf_le day
    have hms : (firstOfMonth (monthOf day) * 86400000 : ℤ) ≤ day * 86400000 := by omega
    exact absurd hdate (not_lt_of_ge hms)
  have hother : ∀ first, first ≠ firstOfMonth (monthOf day) →
      first * msPerDay ≠ firstOfMonth (monthOf day) * msPerDay :=
    fun first hne heq => hne (mul_right_cancel₀ msPerDay_pos.ne' heq)
  cases h with
  | ordinary _ haccrual =>
    obtain ⟨hsame, hothers, -, -⟩ := haccrual.spec hs
    refine ⟨hsame, fun date hdate hnone => (hothers date (hlate date hdate)).trans hnone, ?_⟩
    rintro first amount posted hne ⟨e, he, hrest⟩
    exact ⟨posted, ⟨e, (hothers _ (hother first hne)).trans he, hrest⟩, id⟩
  | @first u v _ batchId r _ haccrual hbusiness hposting =>
    obtain ⟨hsame, hothers, -, -⟩ := haccrual.spec hs
    have hstay := runSavingsInterestPosting_rowsStay (a := a) hposting
    have hrows : ∀ date, date ≠ firstOfMonth (monthOf day) * msPerDay →
        v.accrualOf a date = s.accrualOf a date :=
      fun date hne => (hbusiness.accruals date).trans (hothers date hne)
    refine ⟨?_, ?_, ?_⟩
    · have hafter : u.SameUpTo a day t :=
        Db.SameUpTo.trans ⟨hbusiness.same, hbusiness.balances⟩ (.of_posting hposting)
      exact hsame.trans (hafter.mono (by omega))
    · intro date hdate hnone
      have hrel := hstay date
      rw [hrows date (hlate date hdate), hnone] at hrel
      cases htable : t.accrualOf a date with
      | none => rfl
      | some e =>
        rw [htable] at hrel
        exact absurd hrel Option.not_rel_none_some
    · rintro first amount posted hne ⟨e, he, hrest⟩
      exact hstay.monthRow ⟨e, (hrows _ (hother first hne)).trans he, hrest⟩

/-- The run ends no earlier than it begins. -/
theorem InterestRun.day_le {day' : ℤ} (h : InterestRun a institutionIds day s day' t) :
    day ≤ day' := by
  induction h with
  | start => exact le_rfl
  | day _ _ ih => omega

/-- Before a day, there is no row for a later date than the days of the run. -/
theorem InterestRun.spec {day' : ℤ} (hs : s.EarnsMonthly a account version)
    (h : InterestRun a institutionIds day s day' t)
    (hfresh : ∀ date, day * msPerDay ≤ date → s.accrualOf a date = none) :
    s.SameInterest a t ∧ ∀ date, day' * msPerDay ≤ date → t.accrualOf a date = none := by
  induction h with
  | start => exact ⟨.refl s, hfresh⟩
  | @day day' s' t' hrun hday ih =>
    obtain ⟨hsame, hnone⟩ := ih
    obtain ⟨hstep, hlater, -⟩ := hday.spec (hs.of_same hsame)
    refine ⟨hsame.trans hstep.same, fun date hdate => ?_⟩
    have hms : (day' * 86400000 : ℤ) < (day' + 1) * 86400000 := by omega
    have hlate : day' * msPerDay < date := lt_of_lt_of_le hms hdate
    exact hlater date hlate (hnone date hlate.le)

/-! ## One month -/

/-- A day of a month that is not its first. -/
theorem inside_month {k : ℤ} (hfirst : firstOfMonth k < day) (hlast : day < firstOfMonth (k + 1)) :
    monthOf day = k ∧ dayOfMonth day ≠ 1 := by
  have hmonth : monthOf day = k := monthOf_eq_iff.mpr ⟨hfirst.le, hlast⟩
  have hspec := (monthOf_spec day).1
  rw [hmonth] at hspec
  exact ⟨hmonth, by omega⟩

/-- The days after the first of a month: an open month has the interest of its days so far, and a
month that has been posted stays as it is. -/
theorem InterestRun.month {k : ℤ} {w : Db} (hw : w.EarnsMonthly a account version)
    (h : InterestRun a institutionIds (firstOfMonth k + 1) w day t)
    (hday : day ≤ firstOfMonth (k + 1)) :
    w.SameUpTo a (firstOfMonth k) t ∧
      (∀ amount, w.MonthRow a account (firstOfMonth k) amount true →
        t.MonthRow a account (firstOfMonth k) amount true) ∧
      (w.MonthRow a account (firstOfMonth k)
          (w.monthlyInterest a account version (oneOClock (firstOfMonth k)) (firstOfMonth k)
            (firstOfMonth k)) false →
        t.MonthRow a account (firstOfMonth k)
          (t.monthlyInterest a account version (oneOClock (day - 1)) (firstOfMonth k) (day - 1))
          false) := by
  induction h with
  | start =>
    refine ⟨.refl w, fun _ hrow => hrow, fun hrow => ?_⟩
    rwa [add_sub_cancel_right]
  | @day d s' t' hrun hstep ih =>
    obtain ⟨hsame, hposted, hopen⟩ := ih (by omega)
    have hbegun : firstOfMonth k < d := hrun.day_le
    have hlasts : d < firstOfMonth (k + 1) := hday
    obtain ⟨hmonth, hinside⟩ := inside_month hbegun hlasts
    have hs' := hw.of_same hsame.same
    have haccrual : AccrualDay a d s' t' := by
      cases hstep with
      | ordinary _ haccrual => exact haccrual
      | first hone => exact absurd hone hinside
    obtain ⟨hkept, -, hstays, hwritten⟩ := haccrual.spec hs'
    rw [hmonth] at hstays hwritten
    have hearlier : firstOfMonth k ≤ d - 1 := by omega
    refine ⟨hsame.trans (hkept.mono hearlier), fun amount hrow => hstays _ (hposted _ hrow), ?_⟩
    intro hrow
    rw [add_sub_cancel_right]
    apply hwritten
    obtain ⟨e, he, hinstitution, hflag, -⟩ := hopen hrow
    intro e' he'
    rw [he, Option.some.injEq] at he'
    rw [← he']
    exact ⟨hinstitution, hflag⟩

/-- Through a month of the schedule, the interest that is posted for it comes from the balances of all
its days exactly if the posting of its first day takes up nothing, or its first day alone bears the
same interest. -/
theorem interest_covers_month_iff {k day₀ : ℤ} {s₀ : Db} (hearns : s₀.EarnsMonthly a account version)
    (hinstitution : account.institutionId ∈ institutionIds)
    (hfresh : ∀ date, day₀ * msPerDay ≤ date → s₀.accrualOf a date = none)
    (hrun : InterestMonth a institutionIds day₀ s₀ k v t) :
    t.CoversMonth a account version k ↔
      v.dueInterest a account.institutionId ≤ 0 ∨
        t.monthlyInterest a account version (oneOClock (firstOfMonth k)) (firstOfMonth k)
            (firstOfMonth k) =
          t.monthlyInterest a account version (oneOClock (firstOfMonth (k + 1) - 1))
            (firstOfMonth k) (firstOfMonth (k + 1) - 1) := by
  obtain ⟨s, u, batchId, r, w, s', hbefore, haccrual, hother, hposting, hafter, hlast⟩ := hrun
  have hnext : firstOfMonth k < firstOfMonth (k + 1) := firstOfMonth_strictMono (lt_add_one k)
  obtain ⟨hsame, hnone⟩ := hbefore.spec hearns hfresh
  have hs := hearns.of_same hsame
  -- The row of the month is new on its first day.
  obtain ⟨hday, -, -, hwritten⟩ := haccrual.spec hs
  rw [monthOf_firstOfMonth] at hwritten
  have hopen : s.MonthOpen a account (firstOfMonth k) := by
    intro e he
    rw [hnone _ le_rfl] at he
    cases he
  have hfirst := hwritten hopen
  have hrow : v.MonthRow a account (firstOfMonth k)
      (u.monthlyInterest a account version (oneOClock (firstOfMonth k)) (firstOfMonth k)
        (firstOfMonth k)) false := by
    obtain ⟨e, he, hrest⟩ := hfirst
    exact ⟨e, (hother.accruals _).trans he, hrest⟩
  have hposted : u.SameUpTo a (firstOfMonth k) w :=
    Db.SameUpTo.trans ⟨hother.same, hother.balances⟩ (.of_posting hposting)
  have hw := (hs.of_same hday.same).of_same hposted.same
  -- The rest of the month, and the first day of the next one.
  obtain ⟨hmonth, hstays, hgrows⟩ := hafter.month hw le_rfl
  obtain ⟨hend, -, hkept⟩ := hlast.spec (hw.of_same hmonth.same)
  have hne : firstOfMonth k ≠ firstOfMonth (monthOf (firstOfMonth (k + 1))) := by
    rw [monthOf_firstOfMonth]
    omega
  have hfull : t.monthlyInterest a account version (oneOClock (firstOfMonth (k + 1) - 1))
      (firstOfMonth k) (firstOfMonth (k + 1) - 1) =
        s'.monthlyInterest a account version (oneOClock (firstOfMonth (k + 1) - 1))
          (firstOfMonth k) (firstOfMonth (k + 1) - 1) := hend.monthlyInterest le_rfl ..
  by_cases hdue : v.dueInterest a account.institutionId ≤ 0
  · -- The month stays open, and grows with its days.
    have hstill := monthRow_of_posting_of_nothing_due hdue hrow hposting
    rw [← hposted.monthlyInterest le_rfl] at hstill
    obtain ⟨posted, ⟨e, he, -, -, hamount⟩, -⟩ := hkept _ _ _ hne (hgrows hstill)
    have hcovers : t.CoversMonth a account version k := by
      intro e' he' _
      rw [he, Option.some.injEq] at he'
      rw [← he', hamount, hfull]
    exact ⟨fun _ => .inl hdue, fun _ => hcovers⟩
  · -- The month is posted with its first day.
    have htaken := posted_of_posting (lt_of_not_ge hdue) hinstitution hrow hposting
    obtain ⟨posted, ⟨e, he, -, hflag, hamount⟩, hstayed⟩ := hkept _ _ _ hne (hstays _ htaken)
    have hone : t.monthlyInterest a account version (oneOClock (firstOfMonth k)) (firstOfMonth k)
        (firstOfMonth k) = e.2.amountAccrued := by
      have hlater : firstOfMonth k ≤ firstOfMonth (k + 1) - 1 := by omega
      rw [hend.monthlyInterest hlater, hmonth.monthlyInterest le_rfl,
        hposted.monthlyInterest le_rfl, hamount]
    rw [hone]
    constructor
    · intro hcovers
      exact .inr (hcovers e he (hflag.trans (hstayed rfl)))
    · rintro (hnothing | hequal) e' he' _
      · exact absurd hnothing hdue
      · rw [he, Option.some.injEq] at he'
        rw [← he', hequal]

end Schedule

/-! ## February -/

/-- Some days of the schedule without anything else. -/
def accrueFor : ℕ → ℤ → Db → Option Db
  | 0, _, s => some s
  | n + 1, day, s =>
    match (runSavingsInterestAccrual (oneOClock day)).run s with
    | (.ok _, t) => accrueFor n (day + 1) t
    | (.error _, _) => none

theorem Db.OtherBusiness.refl (a : Id) (day : ℤ) (s : Db) : s.OtherBusiness a day s :=
  ⟨.refl s, fun _ => rfl, fun _ _ => rfl⟩

theorem InterestRun.accrueFor {a : Id} {institutionIds : List Id} {day₀ day : ℤ} {s₀ s t : Db}
    {n : ℕ} (h : InterestRun a institutionIds day₀ s₀ day s)
    (hdays : ∀ i < n, dayOfMonth (day + i) ≠ 1) (hrun : NexusEfos.accrueFor n day s = some t) :
    InterestRun a institutionIds day₀ s₀ (day + n) t := by
  induction n generalizing day s with
  | zero =>
    cases hrun
    rwa [Nat.cast_zero, add_zero]
  | succ n ih =>
    cases haccrual : (runSavingsInterestAccrual (oneOClock day)).run s with
    | mk r u =>
      rw [NexusEfos.accrueFor, haccrual] at hrun
      cases r with
      | error e => cases hrun
      | ok counts =>
        have hfirst : dayOfMonth day ≠ 1 := by simpa using hdays 0 (Nat.succ_pos n)
        have hday : InterestRun a institutionIds day₀ s₀ (day + 1) u :=
          h.day (.ordinary hfirst ⟨s, counts, .refl a (day - 1) s, haccrual⟩)
        have hrest := ih hday (fun i hi => ?_) hrun
        · rwa [add_assoc, add_comm 1 (n : ℤ), ← Nat.cast_succ] at hrest
        · have hlater := hdays (i + 1) (Nat.succ_lt_succ hi)
          rwa [Nat.cast_succ, add_comm (i : ℤ) 1, ← add_assoc] at hlater

/-- An account with 1000.00 whose product averages the balances of a month, at 12 percent. -/
def averagingLedger : Db :=
  ((Db.empty.insert .productVersion
    { productId := 1, interestRate := 12,
      interestMethod := "AVERAGE_DAILY_BALANCE" }).insert .savingsAccount
    { institutionId := 1, customerId := 1, productVersionId := some 1, balance := 100000,
      ledgerBalance := 100000 }).insert .savingsTransaction
    { accountId := 1, type := .deposit, amount := 100000, balanceAfter := 100000, createdAt := 0 }

/-- What the posting of the first of February finds. -/
def firstOfFebruary : Db := ((runSavingsInterestAccrual (oneOClock 31)).run averagingLedger).2

/-- The posting, and a deposit of 1000.00 at noon. -/
def noonOfFebruary : Db :=
  ((runSavingsInterestPosting (twoOClock 31) [1] "february").run firstOfFebruary).2.insert
    .savingsTransaction
    { accountId := 1, type := .deposit, amount := 100000, balanceAfter := 200921,
      createdAt := 31 * msPerDay + 12 * msPerHour }

def secondOfFebruary : Db := ((runSavingsInterestAccrual (oneOClock 32)).run noonOfFebruary).2

def endOfFebruary : Db := (accrueFor 26 33 secondOfFebruary).getD .empty

/-- What the posting of the first of March leaves. -/
def firstOfMarch : Db :=
  ((runSavingsInterestPosting (twoOClock 59) [1] "march").run
    ((runSavingsInterestAccrual (oneOClock 59)).run endOfFebruary).2).2

theorem exists_ok_of_isSome {α : Type} {p : Handler α} {s : Db}
    (h : (p.run s).1.toOption.isSome = true) : ∃ a, p.run s = (.ok a, (p.run s).2) := by
  cases hrun : p.run s with
  | mk r t =>
    rw [hrun] at h
    cases r with
    | ok a => exact ⟨a, rfl⟩
    | error e => cases h

/-- The deposit is dated after the beginning of its day. -/
theorem otherBusiness_deposit (s : Db) {row : SavingsTransaction}
    (hrow : row.createdAt = 31 * msPerDay + 12 * msPerHour) :
    s.OtherBusiness 1 31 (s.insert .savingsTransaction row) := by
  have hkept : s.PostedAt 1 (31 * msPerDay + 12 * msPerHour)
      (s.insert .savingsTransaction row) := .insert hrow
  refine ⟨hkept.same, fun date => ?_, fun d hd => hkept.balances _ ?_⟩
  · unfold Db.accrualOf
    rw [Db.table_insert_of_ne (by decide)]
  · show (d * 86400000 : ℤ) < 31 * 86400000 + 12 * 3600000
    omega

theorem february : InterestMonth 1 [1] 31 averagingLedger (12 * 1970 + 1) firstOfFebruary
    firstOfMarch := by
  have hfebruary : firstOfMonth (12 * 1970 + 1) = 31 := by decide
  have hmarch : firstOfMonth (12 * 1970 + 1 + 1) = 59 := by decide
  obtain ⟨n, haccrual⟩ := exists_ok_of_isSome (s := averagingLedger)
    (p := runSavingsInterestAccrual (oneOClock 31)) (by decide +kernel)
  obtain ⟨r, hposting⟩ := exists_ok_of_isSome (s := firstOfFebruary)
    (p := runSavingsInterestPosting (twoOClock 31) [1] "february") (by decide +kernel)
  obtain ⟨n', haccrual'⟩ := exists_ok_of_isSome (s := endOfFebruary)
    (p := runSavingsInterestAccrual (oneOClock 59)) (by decide +kernel)
  obtain ⟨r', hposting'⟩ := exists_ok_of_isSome
    (s := ((runSavingsInterestAccrual (oneOClock 59)).run endOfFebruary).2)
    (p := runSavingsInterestPosting (twoOClock 59) [1] "march") (by decide +kernel)
  obtain ⟨n'', haccrual''⟩ := exists_ok_of_isSome (s := noonOfFebruary)
    (p := runSavingsInterestAccrual (oneOClock 32)) (by decide +kernel)
  have hrest : accrueFor 26 33 secondOfFebruary = some endOfFebruary := by
    have hsome : (accrueFor 26 33 secondOfFebruary).isSome = true := by decide +kernel
    obtain ⟨t, ht⟩ := Option.isSome_iff_exists.mp hsome
    rw [endOfFebruary, ht]
    rfl
  unfold InterestMonth
  rw [hfebruary, hmarch]
  refine ⟨averagingLedger, firstOfFebruary, "february", r, _, endOfFebruary, .start,
    ⟨averagingLedger, n, .refl 1 30 _, haccrual⟩, .refl 1 31 _, hposting, ?_,
    .first (by decide) ⟨endOfFebruary, n', .refl 1 58 _, haccrual'⟩ (.refl 1 59 _) hposting'⟩
  have hsecond : InterestDay 1 [1] 32
      ((runSavingsInterestPosting (twoOClock 31) [1] "february").run firstOfFebruary).2
      secondOfFebruary :=
    .ordinary (by decide) ⟨noonOfFebruary, n'', otherBusiness_deposit _ rfl, haccrual''⟩
  have hdays : ∀ i < 26, dayOfMonth (32 + 1 + (i : ℕ)) ≠ 1 := by decide +kernel
  exact (InterestRun.start.day hsecond).accrueFor hdays hrest

def averagingAccount : SavingsAccount :=
  { institutionId := 1, customerId := 1, productVersionId := some 1, balance := 100000,
    ledgerBalance := 100000 }

def averagingProduct : ProductVersion :=
  { productId := 1, interestRate := 12, interestMethod := "AVERAGE_DAILY_BALANCE" }

theorem earnsMonthly_averagingLedger :
    averagingLedger.EarnsMonthly 1 averagingAccount (1, averagingProduct) where
  found := ⟨averagingAccount, rfl, .refl _⟩
  versionId := rfl
  product := rfl
  active := rfl
  unsuspended := rfl
  monthly := .inl rfl

theorem interest_covers_month_iff_february :
    firstOfMarch.CoversMonth 1 averagingAccount (1, averagingProduct) (12 * 1970 + 1) ↔
      firstOfFebruary.dueInterest 1 1 ≤ 0 ∨
        firstOfMarch.monthlyInterest 1 averagingAccount (1, averagingProduct)
            (oneOClock (firstOfMonth (12 * 1970 + 1))) (firstOfMonth (12 * 1970 + 1))
            (firstOfMonth (12 * 1970 + 1)) =
          firstOfMarch.monthlyInterest 1 averagingAccount (1, averagingProduct)
            (oneOClock (firstOfMonth (12 * 1970 + 1 + 1) - 1)) (firstOfMonth (12 * 1970 + 1))
            (firstOfMonth (12 * 1970 + 1 + 1) - 1) :=
  interest_covers_month_iff earnsMonthly_averagingLedger (List.mem_singleton_self 1)
    (fun _ _ => rfl) february

/-- February bears the interest of 1000.00, which is what the account had on its first day. -/
theorem interest_covers_month_fails :
    ¬ ∀ (a : Id) (account : SavingsAccount) (version : Id × ProductVersion)
        (institutionIds : List Id) (day₀ k : ℤ) (s₀ v t : Db),
        s₀.EarnsMonthly a account version → account.institutionId ∈ institutionIds →
        (∀ date, day₀ * msPerDay ≤ date → s₀.accrualOf a date = none) →
        InterestMonth a institutionIds day₀ s₀ k v t → t.CoversMonth a account version k := by
  intro h
  have hcovers := h 1 averagingAccount (1, averagingProduct) [1] 31 (12 * 1970 + 1)
    averagingLedger firstOfFebruary firstOfMarch earnsMonthly_averagingLedger
    (List.mem_singleton_self 1) (fun _ _ => rfl) february
  have hposted : (firstOfMarch.accrualOf 1 (firstOfMonth (12 * 1970 + 1) * msPerDay)).map (fun e =>
      (e.2.posted, e.2.amountAccrued)) = some (true, 921) := by decide +kernel
  obtain ⟨e, he, heq⟩ := Option.map_eq_some_iff.mp hposted
  rw [Prod.mk.injEq] at heq
  have hamount := hcovers e he heq.1
  rw [heq.2] at hamount
  revert hamount
  decide +kernel

end NexusEfos
