/-
Interest for a calendar month: what the scheduler accrues every day at one o'clock, and posts on the
first of the month at two (`lib/scheduler.ts`, `routes/savings-interest.routes.ts`).

The accrual of the first creates the row of the new month, for its first day alone, and the posting
of that day takes up every row that has not been posted.  A row that it takes up is not written
again, so its month bears the interest of its first day (`MonthRow`).
-/
import NexusEfos.Calendar
import NexusEfos.Savings.Suspension

namespace NexusEfos

open Proc

/-! ## The row of a date -/

section Rows

variable {s : Db} {a : Id}

/-- Rows that are written again keep their account and their date. -/
theorem accrualOf_modifyAll {f : Id → SavingsInterestAccrual → SavingsInterestAccrual}
    (h : ∀ id row, (f id row).accountId = row.accountId ∧
      (f id row).accrualDate = row.accrualDate) (a : Id) (date : DateTime) :
    (s.modifyAll .savingsInterestAccrual f).accrualOf a date =
      (s.accrualOf a date).map fun e => (e.1, f e.1 e.2) := by
  unfold Db.accrualOf
  rw [Db.table_modifyAll_self]
  show ((s.table .savingsInterestAccrual).entries.map fun e => (e.1, f e.1 e.2)).find? _ = _
  rw [List.find?_map]
  congr 2
  funext e
  show decide ((f e.1 e.2).accountId = a ∧ (f e.1 e.2).accrualDate = date) = _
  rw [(h e.1 e.2).1, (h e.1 e.2).2]

theorem accrualOf_modify {f : SavingsInterestAccrual → SavingsInterestAccrual}
    (h : ∀ row, (f row).accountId = row.accountId ∧ (f row).accrualDate = row.accrualDate)
    (id : Id) (date : DateTime) :
    (s.modify .savingsInterestAccrual id f).accrualOf a date =
      (s.accrualOf a date).map fun e => if e.1 = id then (e.1, f e.2) else e := by
  have hall : s.modify .savingsInterestAccrual id f = s.modifyAll .savingsInterestAccrual
      fun id' row => if id' = id then f row else row := rfl
  rw [hall, accrualOf_modifyAll]
  · congr 1
    funext e
    split
    · rfl
    · rfl
  · intro id' row
    split
    · exact h row
    · exact ⟨rfl, rfl⟩

theorem accrualOf_insert (new : SavingsInterestAccrual) (date : DateTime) :
    (s.insert .savingsInterestAccrual new).accrualOf a date =
      (s.accrualOf a date).or (if new.accountId = a ∧ new.accrualDate = date then
        some (s.nextId .savingsInterestAccrual, new) else none) := by
  unfold Db.accrualOf
  rw [Db.table_insert_self]
  show ((s.table .savingsInterestAccrual).entries ++
    [(s.nextId .savingsInterestAccrual, new)]).find? _ = _
  rw [List.find?_append]
  congr 1
  by_cases h : new.accountId = a ∧ new.accrualDate = date
  · rw [if_pos h, List.find?_cons_of_pos (by simpa using h)]
  · rw [if_neg h, List.find?_cons_of_neg (by simpa using h), List.find?_nil]

/-- The account and the date of the row that is found. -/
theorem accrualOf_eq_some {date : DateTime} {e : Id × SavingsInterestAccrual}
    (h : s.accrualOf a date = some e) :
    s.find? .savingsInterestAccrual e.1 = some e.2 ∧ e.2.accountId = a ∧
      e.2.accrualDate = date := by
  unfold Db.accrualOf at h
  have hsame := List.find?_some h
  rw [decide_eq_true_eq] at hsame
  exact ⟨OrderedMap.get?_eq_some.mpr (List.mem_of_find?_eq_some h), hsame⟩

/-- What the upsert of a row leaves for a date. -/
theorem accrualOf_withAccrual (new : SavingsInterestAccrual) (a : Id) (date : DateTime) :
    (s.withAccrual new).accrualOf a date =
      if new.accountId = a ∧ new.accrualDate = date then
        some (match s.accrualOf a date with
          | some e => (e.1, new.rewrite e.2)
          | none => (s.nextId .savingsInterestAccrual, new))
      else s.accrualOf a date := by
  unfold Db.withAccrual
  split
  · next id row hfound =>
    obtain ⟨hrow, haccount, hdate⟩ := accrualOf_eq_some hfound
    have hmodify := accrualOf_modify (s := s) (a := a) (f := new.rewrite) (fun _ => ⟨rfl, rfl⟩) id date
    rw [hmodify]
    by_cases h : new.accountId = a ∧ new.accrualDate = date
    · obtain ⟨rfl, rfl⟩ := h
      rw [if_pos ⟨rfl, rfl⟩, hfound, Option.map_some]
      simp only [if_true]
    · rw [if_neg h]
      cases hother : s.accrualOf a date with
      | none => rfl
      | some e =>
        obtain ⟨he, heaccount, hedate⟩ := accrualOf_eq_some hother
        have hid : e.1 ≠ id := by
          rintro rfl
          rw [hrow, Option.some.injEq] at he
          rw [← he] at heaccount hedate
          exact h ⟨haccount.symm.trans heaccount, hdate.symm.trans hedate⟩
        rw [Option.map_some, if_neg hid]
  · next hfound =>
    rw [accrualOf_insert]
    by_cases h : new.accountId = a ∧ new.accrualDate = date
    · obtain ⟨rfl, rfl⟩ := h
      rw [if_pos ⟨rfl, rfl⟩, if_pos ⟨rfl, rfl⟩, hfound, Option.none_or]
    · rw [if_neg h, if_neg h, Option.or_none]

end Rows

/-! ## The interest of a month -/

/-- The rate that `resolveEffectiveRate` comes to. -/
def Db.effectiveRate (s : Db) (now : DateTime) (account : SavingsAccount)
    (version : Id × ProductVersion) (balanceUsed : ℚ) : ℚ :=
  match account.promotion now with
  | some rate => rate
  | none =>
    if version.2.interestRateType = "TIERED" then
      match (s.interestTiers version.1).find? fun t => t.2.Holds balanceUsed with
      | some tier => tier.2.interestRate
      | none => version.2.interestRate
    else version.2.interestRate

theorem run_resolveEffectiveRate_eq (now : DateTime) (account : SavingsAccount)
    (version : Id × ProductVersion) (balanceUsed : ℚ) (s : Db) :
    (resolveEffectiveRate now account version.1 version.2 balanceUsed).run s =
      (.ok (s.effectiveRate now account version balanceUsed), s) := by
  unfold resolveEffectiveRate Db.effectiveRate
  cases account.promotion now with
  | some rate => rfl
  | none =>
    dsimp only
    split
    · show (match (s.interestTiers version.1).find? fun t => t.2.Holds balanceUsed with
        | some tier => pure tier.2.interestRate
        | none => pure version.2.interestRate : Handler ℚ).run s = _
      cases (s.interestTiers version.1).find? fun t => decide (t.2.Holds balanceUsed) with
      | some tier => rfl
      | none => rfl
    · rfl

/-- An hour in milliseconds. -/
def msPerHour : ℤ := 3600000

/-- The opening balances of the days from one to another. -/
def Db.openingBalances (s : Db) (a : Id) (first last : ℤ) : List ℚ :=
  (List.range (last - first + 1).toNat).map fun n : ℕ => s.balanceAsOf a ((first + n) * msPerDay)

/-- The interest of a month that begins with a day, from the opening balances up to another. -/
def Db.monthlyInterest (s : Db) (a : Id) (account : SavingsAccount) (version : Id × ProductVersion)
    (now : DateTime) (first last : ℤ) : Cents :=
  let balanceUsed := monthBalance version.2.interestMethod (s.openingBalances a first last)
  ofNumber (round2 (balanceUsed * (s.effectiveRate now account version balanceUsed / 100) *
    (daysInMonth (first * msPerDay) / 365)))

/-! ## The days of the schedule -/

/-- One o'clock of a day. -/
def oneOClock (day : ℤ) : DateTime := day * msPerDay + msPerHour

theorem oneOClock_div (day : ℤ) : oneOClock day / msPerDay = day := by
  show (day * 86400000 + 3600000 : ℤ) / 86400000 = day
  omega

theorem eachDay_eq (first last : DateTime) :
    eachDay first last =
      (List.range ((last - first) / msPerDay + 1).toNat).map fun n : ℕ => addDays first n := by
  unfold eachDay
  show ((List.range _).flatMap fun n : ℕ => [(n : ℤ)]).map _ = _
  rw [← List.map_eq_flatMap, List.map_map]
  rfl

theorem startOfMonth_eq (t : DateTime) :
    startOfMonth t = firstOfMonth (monthOf (t / msPerDay)) * msPerDay := by
  have hyear := monthOf_div_twelve (t / msPerDay)
  have hmonth := monthOf_mod_twelve (t / msPerDay)
  unfold startOfMonth firstOfMonth
  rw [hyear, hmonth, sub_add_cancel]

theorem endOfMonth_eq (t : DateTime) :
    endOfMonth t = firstOfMonth (monthOf (t / msPerDay) + 1) * msPerDay - 1 := by
  unfold endOfMonth
  rw [startOfMonth_eq, addMonths_firstOfMonth]

/-- The month has as many days, whatever day it is looked at. -/
theorem daysInMonth_oneOClock (day : ℤ) :
    daysInMonth (oneOClock day) = daysInMonth (firstOfMonth (monthOf day) * msPerDay) := by
  unfold daysInMonth
  rw [endOfMonth_eq, endOfMonth_eq, oneOClock_div, firstOfMonth_mul_div, monthOf_firstOfMonth]

/-- The accrual of a day uses the opening balances of its month up to the day. -/
theorem dayBalances_oneOClock (s : Db) (a : Id) (day : ℤ) :
    s.dayBalances a (oneOClock day) = s.openingBalances a (firstOfMonth (monthOf day)) day := by
  obtain ⟨hfirst, hnext⟩ := monthOf_eq_iff.mp (rfl : monthOf day = monthOf day)
  have hend : min (oneOClock day) (endOfMonth (oneOClock day)) = oneOClock day := by
    apply min_eq_left
    rw [endOfMonth_eq, oneOClock_div]
    show (day * 86400000 + 3600000 : ℤ) ≤ firstOfMonth (monthOf day + 1) * 86400000 - 1
    omega
  have hcount : (oneOClock day - firstOfMonth (monthOf day) * msPerDay) / msPerDay + 1 =
      day - firstOfMonth (monthOf day) + 1 := by
    show (day * 86400000 + 3600000 - firstOfMonth (monthOf day) * 86400000 : ℤ) / 86400000 + 1 = _
    omega
  unfold Db.dayBalances Db.openingBalances
  rw [hend, startOfMonth_eq, oneOClock_div, eachDay_eq, hcount, List.map_map]
  apply List.map_congr_left
  intro n _
  show s.balanceAsOf a (startOfDay (addDays (firstOfMonth (monthOf day) * msPerDay) n)) = _
  have hmidnight : startOfDay (addDays (firstOfMonth (monthOf day) * msPerDay) n) =
      (firstOfMonth (monthOf day) + n) * msPerDay := by
    unfold startOfDay addDays
    rw [← add_mul, Int.mul_emod_left, sub_zero]
  rw [hmidnight]

/-! ## An account that earns by the month -/

/-- Two rows of an account that earn alike. -/
structure SavingsAccount.SameInterestTerms (acct acct' : SavingsAccount) : Prop where
  institutionId : acct'.institutionId = acct.institutionId
  productVersionId : acct'.productVersionId = acct.productVersionId
  status : acct'.status = acct.status
  interestSuspended : acct'.interestSuspended = acct.interestSuspended
  promoInterestRate : acct'.promoInterestRate = acct.promoInterestRate
  promoExpiresAt : acct'.promoExpiresAt = acct.promoExpiresAt

namespace SavingsAccount.SameInterestTerms

variable {x y z : SavingsAccount}

theorem refl (x : SavingsAccount) : x.SameInterestTerms x := ⟨rfl, rfl, rfl, rfl, rfl, rfl⟩

theorem trans (h : x.SameInterestTerms y) (h' : y.SameInterestTerms z) : x.SameInterestTerms z where
  institutionId := h'.institutionId.trans h.institutionId
  productVersionId := h'.productVersionId.trans h.productVersionId
  status := h'.status.trans h.status
  interestSuspended := h'.interestSuspended.trans h.interestSuspended
  promoInterestRate := h'.promoInterestRate.trans h.promoInterestRate
  promoExpiresAt := h'.promoExpiresAt.trans h.promoExpiresAt

theorem promotion (h : x.SameInterestTerms y) (now : DateTime) :
    y.promotion now = x.promotion now := by
  unfold SavingsAccount.promotion
  rw [h.promoInterestRate, h.promoExpiresAt]

end SavingsAccount.SameInterestTerms

/-- The account earns as it did. -/
structure Db.SameInterest (a : Id) (s t : Db) : Prop where
  account : Option.Rel SavingsAccount.SameInterestTerms (s.find? .savingsAccount a)
    (t.find? .savingsAccount a)
  products : s.Agree [.productVersion, .interestRateTier] t

/-- The account is active, its interest is not suspended, and its product accrues by the month. -/
structure Db.EarnsMonthly (s : Db) (a : Id) (account : SavingsAccount)
    (version : Id × ProductVersion) : Prop where
  found : ∃ acct, s.find? .savingsAccount a = some acct ∧ account.SameInterestTerms acct
  versionId : account.productVersionId = some version.1
  product : s.find? .productVersion version.1 = some version.2
  active : account.status = .active
  unsuspended : account.interestSuspended = false
  monthly : version.2.interestMethod = "AVERAGE_DAILY_BALANCE" ∨
    version.2.interestMethod = "MINIMUM_MONTHLY_BALANCE"

section Earning

variable {a : Id} {s t u : Db} {account : SavingsAccount} {version : Id × ProductVersion}

namespace Db.SameInterest

theorem of_find?_eq (h : t.find? .savingsAccount a = s.find? .savingsAccount a)
    (hproducts : s.Agree [.productVersion, .interestRateTier] t) : s.SameInterest a t := by
  refine ⟨?_, hproducts⟩
  rw [h]
  cases s.find? .savingsAccount a with
  | some acct => exact .some (.refl acct)
  | none => exact .none

theorem refl (s : Db) : s.SameInterest a s := .of_find?_eq rfl (.refl s)

theorem trans (h : s.SameInterest a t) (h' : t.SameInterest a u) : s.SameInterest a u := by
  refine ⟨?_, h.products.trans h'.products⟩
  have hfirst := h.account
  have hsecond := h'.account
  revert hfirst hsecond
  generalize s.find? .savingsAccount a = x
  generalize t.find? .savingsAccount a = y
  generalize u.find? .savingsAccount a = z
  intro hfirst hsecond
  cases hfirst with
  | some hxy =>
    cases hsecond with
    | some hyz => exact .some (hxy.trans hyz)
  | none => exact hsecond

/-- A row of the accounts is written, with the same terms. -/
theorem modify (s : Db) (a b : Id) {f : SavingsAccount → SavingsAccount}
    (hf : ∀ acct : SavingsAccount, acct.SameInterestTerms (f acct)) :
    s.SameInterest a (s.modify .savingsAccount b f) := by
  refine ⟨?_, .modify (by decide) s _ _⟩
  rw [Db.find?_modify]
  cases s.find? .savingsAccount a with
  | some acct =>
    split
    · exact .some (hf acct)
    · exact .some (.refl acct)
  | none =>
    split
    · exact .none
    · exact .none

theorem effectiveRate (h : s.SameInterest a t) (now : DateTime) (account : SavingsAccount)
    (version : Id × ProductVersion) (balanceUsed : ℚ) :
    t.effectiveRate now account version balanceUsed =
      s.effectiveRate now account version balanceUsed := by
  unfold Db.effectiveRate Db.interestTiers
  rw [h.products .interestRateTier (by decide)]

end Db.SameInterest

theorem Db.EarnsMonthly.of_same (hs : s.EarnsMonthly a account version)
    (h : s.SameInterest a t) : t.EarnsMonthly a account version := by
  refine { hs with found := ?_, product := ?_ }
  · obtain ⟨acct, hacct, hterms⟩ := hs.found
    have hrel := h.account
    rw [hacct] at hrel
    cases hafter : t.find? .savingsAccount a with
    | some acct' =>
      rw [hafter] at hrel
      exact ⟨acct', rfl, hterms.trans (Option.rel_some_some.mp hrel)⟩
    | none =>
      rw [hafter] at hrel
      exact absurd hrel Option.not_rel_some_none
  · rw [h.products.find? (by decide), hs.product]

/-- The interest of a month comes from the terms and from the balances of its days. -/
theorem monthlyInterest_congr (h : s.SameInterest a t) {first last : ℤ}
    (hbalances : ∀ day, day ≤ last →
      t.balanceAsOf a (day * msPerDay) = s.balanceAsOf a (day * msPerDay))
    (account : SavingsAccount) (version : Id × ProductVersion) (now : DateTime) :
    t.monthlyInterest a account version now first last =
      s.monthlyInterest a account version now first last := by
  have hopening : t.openingBalances a first last = s.openingBalances a first last := by
    unfold Db.openingBalances
    apply List.map_congr_left
    intro n hn
    have hlast : first + n ≤ last := by
      rw [List.mem_range] at hn
      omega
    exact hbalances _ hlast
  unfold Db.monthlyInterest
  simp only [hopening, h.effectiveRate]

/-! ## The accrual of a day -/

/-- The row that the accrual of a day writes for the month. -/
def Db.MonthAccrued (s : Db) (a : Id) (account : SavingsAccount) (version : Id × ProductVersion)
    (day : ℤ) (new : SavingsInterestAccrual) : Prop :=
  new.accountId = a ∧ new.accrualDate = firstOfMonth (monthOf day) * msPerDay ∧
    new.institutionId = account.institutionId ∧ new.posted = false ∧
      new.amountAccrued = s.monthlyInterest a account version (oneOClock day)
        (firstOfMonth (monthOf day)) day

/-- The row of the month has been posted. -/
def Db.MonthPosted (s : Db) (a : Id) (day : ℤ) : Prop :=
  ∃ e, s.accrualOf a (firstOfMonth (monthOf day) * msPerDay) = some e ∧ e.2.posted = true

theorem eq_withAccrual_of_run {new : SavingsInterestAccrual} {row : Id × SavingsInterestAccrual}
    (h : (upsertAccrual new).run s = (.ok row, t)) : t = s.withAccrual new := by
  have hrun := upsertAccrual_run new s
  rw [h] at hrun
  exact hrun

theorem run_accrueMonth_oneOClock {acct : SavingsAccount} (hterms : account.SameInterestTerms acct)
    {day : ℤ} {outcome : AccrualOutcome}
    (h : (accrueMonth (oneOClock day) a account.institutionId acct version (oneOClock day)).run s =
      (.ok outcome, t)) :
    s.MonthPosted a day ∧ t = s ∧ (∃ reason, outcome = .skipped reason) ∨
      ¬ s.MonthPosted a day ∧ ∃ new rows, outcome = .accruals rows ∧
        s.MonthAccrued a account version day new ∧ t = s.withAccrual new := by
  unfold accrueMonth at h
  rw [startOfMonth_eq, oneOClock_div] at h
  have h := run_query_bind h
  by_cases hposted : ∃ e ∈ s.accrualOf a (firstOfMonth (monthOf day) * msPerDay), e.2.posted = true
  · rw [if_pos hposted] at h
    obtain ⟨hr, rfl⟩ := Prod.mk.inj h
    exact .inl ⟨hposted, rfl, _, (Except.ok.inj hr).symm⟩
  · rw [if_neg hposted] at h
    have hread : (Proc.mapEach (eachDay (firstOfMonth (monthOf day) * msPerDay)
        (min (oneOClock day) (endOfMonth (oneOClock day)))) fun d =>
          getBalanceAsOf a (startOfDay d)).run s =
            (.ok (s.openingBalances a (firstOfMonth (monthOf day)) day), s) := by
      rw [← dayBalances_oneOClock, Db.dayBalances, startOfMonth_eq, oneOClock_div]
      exact Proc.run_mapEach_ok fun _ _ => rfl
    rw [Proc.run_bind_ok hread, Proc.run_bind_ok (run_resolveEffectiveRate_eq ..)] at h
    obtain ⟨row, u, hupsert, hend⟩ := Proc.run_bind_eq_ok h
    obtain ⟨hr, rfl⟩ := Prod.mk.inj hend
    refine .inr ⟨hposted, _, [row], (Except.ok.inj hr).symm, ⟨rfl, rfl, rfl, rfl, ?_⟩,
      eq_withAccrual_of_run hupsert⟩
    show ofNumber (round2 (_ * (s.effectiveRate (oneOClock day) acct version _ / 100) *
      (daysInMonth (oneOClock day) / 365))) = _
    have hrate : ∀ x, s.effectiveRate (oneOClock day) acct version x =
        s.effectiveRate (oneOClock day) account version x := by
      intro x
      unfold Db.effectiveRate
      rw [hterms.promotion]
    rw [hrate, daysInMonth_oneOClock]
    rfl

/-- The accrual of an account leaves the month as it is once it has been posted, and writes its row
otherwise. -/
theorem run_runAccrualForAccount_oneOClock (hs : s.EarnsMonthly a account version) {day : ℤ}
    {outcome : AccrualOutcome}
    (h : (runAccrualForAccount (oneOClock day) a account.institutionId (oneOClock day)).run s =
      (.ok outcome, t)) :
    s.MonthPosted a day ∧ t = s ∨
      ¬ s.MonthPosted a day ∧ ∃ new, s.MonthAccrued a account version day new ∧
        t = (s.withAccrual new).modify .savingsAccount a fun acct =>
          { acct with lastAccrualDate := some (oneOClock day) } := by
  obtain ⟨acct, hacct, hterms⟩ := hs.found
  have hversionId := hterms.productVersionId.trans hs.versionId
  have hunsuspended : ¬ acct.interestSuspended = true := by
    rw [hterms.interestSuspended, hs.unsuspended]
    decide
  have hactive : ¬ acct.status ≠ .active := by
    rw [hterms.status, hs.active]
    decide
  unfold runAccrualForAccount at h
  rw [Proc.run_bind_ok (run_loadAccountWithProduct hacct hversionId hs.product),
    if_pos hterms.institutionId] at h
  dsimp only at h
  rw [if_neg hunsuspended, if_neg hactive] at h
  obtain ⟨result, u, hrows, hend⟩ := Proc.run_bind_eq_ok h
  unfold accrueRows at hrows
  rw [if_pos hs.monthly] at hrows
  obtain ⟨hposted, rfl, reason, rfl⟩ | ⟨hposted, new, rows, rfl, hnew, rfl⟩ :=
    run_accrueMonth_oneOClock hterms hrows
  · exact .inl ⟨hposted, (Prod.mk.inj hend).2.symm⟩
  · obtain ⟨_, v, hupdate, hlast⟩ := Proc.run_bind_eq_ok hend
    obtain ⟨-, -, -, rfl⟩ := run_update_eq_ok hupdate
    exact .inr ⟨hposted, new, hnew, (Prod.mk.inj hlast).2.symm⟩

/-! ## The accrual of all accounts -/

/-- The row of the month is there, open, with the interest up to the day. -/
def Db.WritesMonth (a : Id) (account : SavingsAccount) (version : Id × ProductVersion) (day : ℤ)
    (s t : Db) : Prop :=
  ∃ e, t.accrualOf a (firstOfMonth (monthOf day) * msPerDay) = some e ∧ e.2.posted = false ∧
    e.2.amountAccrued = s.monthlyInterest a account version (oneOClock day)
      (firstOfMonth (monthOf day)) day ∧
    ((∀ e₀, s.accrualOf a (firstOfMonth (monthOf day) * msPerDay) = some e₀ →
      e₀.2.institutionId = account.institutionId) → e.2.institutionId = account.institutionId)

/-- What the accrual of one account, whichever it is, does to the rows of an account. -/
structure Db.AccrualTurn (a : Id) (account : SavingsAccount) (version : Id × ProductVersion)
    (day : ℤ) (s t : Db) : Prop where
  same : s.SameInterest a t
  transactions : t.table .savingsTransaction = s.table .savingsTransaction
  others : ∀ date, date ≠ firstOfMonth (monthOf day) * msPerDay →
    t.accrualOf a date = s.accrualOf a date
  row : t.accrualOf a (firstOfMonth (monthOf day) * msPerDay) =
      s.accrualOf a (firstOfMonth (monthOf day) * msPerDay) ∨
    ¬ s.MonthPosted a day ∧ s.WritesMonth a account version day t

/-- The accrual of another account. -/
structure Db.OthersAccrued (a : Id) (s t : Db) : Prop where
  account : t.find? .savingsAccount a = s.find? .savingsAccount a
  frame : s.Agree [.savingsTransaction, .productVersion, .interestRateTier] t
  accruals : ∀ date, t.accrualOf a date = s.accrualOf a date

namespace Db.OthersAccrued

theorem refl (s : Db) : s.OthersAccrued a s := ⟨rfl, .refl s, fun _ => rfl⟩

theorem trans (h : s.OthersAccrued a t) (h' : t.OthersAccrued a u) : s.OthersAccrued a u :=
  ⟨h'.account.trans h.account, h.frame.trans h'.frame,
    fun date => (h'.accruals date).trans (h.accruals date)⟩

theorem of_agree (h : s.Agree [.savingsAccount, .savingsTransaction, .productVersion,
    .interestRateTier, .savingsInterestAccrual] t) : s.OthersAccrued a t := by
  refine ⟨h.find? (by decide) a, fun m hm => h m ?_, fun date => ?_⟩
  · revert m
    decide
  · unfold Db.accrualOf
    rw [h .savingsInterestAccrual (by decide)]

theorem turn (h : s.OthersAccrued a t) (account : SavingsAccount) (version : Id × ProductVersion)
    (day : ℤ) : s.AccrualTurn a account version day t :=
  ⟨.of_find?_eq h.account fun m hm => h.frame m (List.mem_cons_of_mem _ hm),
    h.frame _ (by decide), fun date _ => h.accruals date, .inl (h.accruals _)⟩

end Db.OthersAccrued

theorem runAccrualForAccount_othersAccrued {b : Id} (hb : b ≠ a) (now : DateTime)
    (institutionId : Id) (throughDate : DateTime) :
    (runAccrualForAccount now b institutionId throughDate).Every (Db.OthersAccrued a) := by
  apply EveryStep.every
  apply runAccrualForAccount_everyStep fun _ _ _ h => .of_agree h
  · intro new hnew _ _
    refine ⟨fun s => ?_, fun _ => trivial⟩
    show s.OthersAccrued a ((upsertAccrual new).run s).2
    rw [upsertAccrual_run]
    have hframe : s.Agree [.savingsAccount, .savingsTransaction, .productVersion,
        .interestRateTier] (s.withAccrual new) := by
      unfold Db.withAccrual
      split
      · exact .modify (by decide) s _ _
      · exact .insert (by decide) s _
    refine ⟨hframe.find? (by decide) a, fun m hm => hframe m (List.mem_cons_of_mem _ hm), ?_⟩
    intro date
    rw [accrualOf_withAccrual, if_neg]
    exact fun h => hb (hnew.symm.trans h.1)
  · intro throughDate
    refine ⟨fun s => ?_, fun _ => trivial⟩
    have hupdate : s.OthersAccrued a (s.modify .savingsAccount b fun acct =>
        { acct with lastAccrualDate := some throughDate }) := by
      refine ⟨?_, .modify (by decide) s _ _, fun date => ?_⟩
      · rw [Db.find?_modify, if_neg hb.symm]
      · unfold Db.accrualOf
        rw [Db.table_modify_of_ne (by decide)]
    cases hrow : s.find? .savingsAccount b with
    | some row => simpa only [hrow] using hupdate
    | none => simpa only [hrow] using Db.OthersAccrued.refl s

/-- The accrual of the account itself. -/
theorem accrualTurn_self (hs : s.EarnsMonthly a account version) {day : ℤ}
    {outcome : AccrualOutcome}
    (h : (runAccrualForAccount (oneOClock day) a account.institutionId (oneOClock day)).run s =
      (.ok outcome, t)) :
    s.AccrualTurn a account version day t ∧
      (¬ s.MonthPosted a day → s.WritesMonth a account version day t) := by
  obtain ⟨hposted, rfl⟩ | ⟨hposted, new, hnew, rfl⟩ := run_runAccrualForAccount_oneOClock hs h
  · exact ⟨⟨.refl t, rfl, fun _ _ => rfl, .inl rfl⟩, fun hnot => absurd hposted hnot⟩
  · obtain ⟨haccount, hdate, hinstitution, hfree, hamount⟩ := hnew
    have hrow : ∀ date, ((s.withAccrual new).modify .savingsAccount a fun acct =>
        { acct with lastAccrualDate := some (oneOClock day) }).accrualOf a date =
          (s.withAccrual new).accrualOf a date := by
      intro date
      unfold Db.accrualOf
      rw [Db.table_modify_of_ne (by decide)]
    have hframe : s.Agree [.savingsAccount, .savingsTransaction, .productVersion,
        .interestRateTier] (s.withAccrual new) := by
      unfold Db.withAccrual
      split
      · exact .modify (by decide) s _ _
      · exact .insert (by decide) s _
    have hwrites : ¬ s.MonthPosted a day → s.WritesMonth a account version day
        ((s.withAccrual new).modify .savingsAccount a fun acct =>
          { acct with lastAccrualDate := some (oneOClock day) }) := by
      intro hposted
      unfold Db.WritesMonth
      rw [hrow, accrualOf_withAccrual, if_pos ⟨haccount, hdate⟩]
      refine ⟨_, rfl, ?_⟩
      cases hold : s.accrualOf a (firstOfMonth (monthOf day) * msPerDay) with
      | some e₀ =>
        have hopen : e₀.2.posted = false := by
          cases hflag : e₀.2.posted with
          | false => rfl
          | true => exact absurd ⟨e₀, hold, hflag⟩ hposted
        exact ⟨hopen, hamount, fun hinst => hinst e₀ rfl⟩
      | none => exact ⟨hfree, hamount, fun _ => hinstitution⟩
    refine ⟨⟨?_, ?_, ?_, .inr ⟨hposted, hwrites hposted⟩⟩, hwrites⟩
    · have hfirst : s.SameInterest a (s.withAccrual new) :=
        .of_find?_eq (hframe.find? (by decide) a) fun m hm => hframe m (by revert m; decide)
      exact hfirst.trans (.modify _ a a fun _ => ⟨rfl, rfl, rfl, rfl, rfl, rfl⟩)
    · rw [Db.table_modify_of_ne (by decide), hframe _ (by decide)]
    · intro date hne
      rw [hrow, accrualOf_withAccrual, if_neg]
      exact fun h => hne (h.2.symm.trans hdate)

/-- The row of the month that begins with a day: its interest, and whether it has been posted. -/
def Db.MonthRow (s : Db) (a : Id) (account : SavingsAccount) (first : ℤ) (amount : Cents)
    (posted : Bool) : Prop :=
  ∃ e, s.accrualOf a (first * msPerDay) = some e ∧ e.2.institutionId = account.institutionId ∧
    e.2.posted = posted ∧ e.2.amountAccrued = amount

/-- There is no row of the month that begins with a day, or it has not been posted. -/
def Db.MonthOpen (s : Db) (a : Id) (account : SavingsAccount) (first : ℤ) : Prop :=
  ∀ e, s.accrualOf a (first * msPerDay) = some e →
    e.2.institutionId = account.institutionId ∧ e.2.posted = false

/-- What the accrual of a day leaves. -/
structure Db.DayAccrued (a : Id) (day : ℤ) (s t : Db) : Prop where
  same : s.SameInterest a t
  transactions : t.table .savingsTransaction = s.table .savingsTransaction
  others : ∀ date, date ≠ firstOfMonth (monthOf day) * msPerDay →
    t.accrualOf a date = s.accrualOf a date

theorem Db.DayAccrued.monthlyInterest {day : ℤ} (h : s.DayAccrued a day t) (account : SavingsAccount)
    (version : Id × ProductVersion) (now : DateTime) (first last : ℤ) :
    t.monthlyInterest a account version now first last =
      s.monthlyInterest a account version now first last := by
  apply monthlyInterest_congr h.same
  intro _ _
  unfold Db.balanceAsOf
  rw [h.transactions]

theorem Db.DayAccrued.turn {day : ℤ} (h : s.DayAccrued a day t)
    (ht : t.AccrualTurn a account version day u) : s.DayAccrued a day u :=
  ⟨h.same.trans ht.same, ht.transactions.trans h.transactions,
    fun date hne => (ht.others date hne).trans (h.others date hne)⟩

/-- The accrual of a day, for all accounts: what every turn keeps, and what the turn of the account
brings about. -/
theorem run_runSavingsInterestAccrual_induction {day : ℤ} {E P : Db → Prop}
    (hE : ∀ u u', s.DayAccrued a day u → E u → u.AccrualTurn a account version day u' → E u')
    (hP : ∀ u u', s.DayAccrued a day u → E u → P u → u.AccrualTurn a account version day u' → P u')
    (hself : ∀ u u', s.DayAccrued a day u → E u →
      (¬ u.MonthPosted a day → u.WritesMonth a account version day u') → P u')
    (hs : s.EarnsMonthly a account version) (hstart : E s) {n : ℕ × ℕ}
    (h : (runSavingsInterestAccrual (oneOClock day)).run s = (.ok n, t)) :
    s.DayAccrued a day t ∧ E t ∧ P t := by
  have h := run_query_bind h
  obtain ⟨outcomes, u, hall, hend⟩ := Proc.run_bind_eq_ok h
  obtain ⟨-, rfl⟩ := Prod.mk.inj hend
  obtain ⟨acct, hacct, hterms⟩ := hs.found
  have hmem : (a, acct) ∈ (s.table .savingsAccount).entries.filter fun e =>
      decide (e.2.status = .active ∧ e.2.interestSuspended = false) := by
    rw [List.mem_filter, decide_eq_true_eq]
    exact ⟨OrderedMap.get?_eq_some.mp hacct, hterms.status.trans hs.active,
      hterms.interestSuspended.trans hs.unsuspended⟩
  have hturn : ∀ acc ∈ (s.table .savingsAccount).entries.filter (fun e =>
      decide (e.2.status = .active ∧ e.2.interestSuspended = false)), ∀ v r v',
      s.DayAccrued a day v →
      (runAccrualForAccount (oneOClock day) acc.1 acc.2.institutionId (oneOClock day)).run v =
        (.ok r, v') →
      v.AccrualTurn a account version day v' ∧
        (acc.1 = a → ¬ v.MonthPosted a day → v.WritesMonth a account version day v') := by
    rintro ⟨b, row⟩ hacc v r v' hv hrun
    by_cases hb : b = a
    · subst hb
      have hrow : s.find? .savingsAccount b = some row :=
        OrderedMap.get?_eq_some.mpr (List.mem_filter.mp hacc).1
      rw [hacct, Option.some.injEq] at hrow
      subst hrow
      rw [hterms.institutionId] at hrun
      obtain ⟨hturn, hwrites⟩ := accrualTurn_self (hs.of_same hv.same) hrun
      exact ⟨hturn, fun _ => hwrites⟩
    · have hothers := (runAccrualForAccount_othersAccrued hb (oneOClock day) row.institutionId
        (oneOClock day)).run .refl .trans v
      rw [hrun] at hothers
      exact ⟨hothers.turn account version day, fun heq => absurd heq hb⟩
  have hreached := Proc.run_mapEach_reaches (I := fun u => s.DayAccrued a day u ∧ E u) (P := P)
    (fun acc hacc v r v' hv hrun => ⟨hv.1.turn (hturn acc hacc v r v' hv.1 hrun).1,
      hE v v' hv.1 hv.2 (hturn acc hacc v r v' hv.1 hrun).1⟩)
    (fun acc hacc v r v' hv hPv hrun => hP v v' hv.1 hv.2 hPv (hturn acc hacc v r v' hv.1 hrun).1)
    hmem
    (fun v r v' hv hrun => hself v v' hv.1 hv.2 ((hturn _ hmem v r v' hv.1 hrun).2 rfl))
    ⟨⟨.refl s, rfl, fun _ _ => rfl⟩, hstart⟩ hall
  exact ⟨hreached.1.1, hreached.1.2, hreached.2⟩

theorem dayAccrued_of_accrual {day : ℤ} (hs : s.EarnsMonthly a account version) {n : ℕ × ℕ}
    (h : (runSavingsInterestAccrual (oneOClock day)).run s = (.ok n, t)) :
    s.DayAccrued a day t :=
  (run_runSavingsInterestAccrual_induction (E := fun _ => True) (P := fun _ => True)
    (fun _ _ _ _ _ => trivial) (fun _ _ _ _ _ _ => trivial) (fun _ _ _ _ _ => trivial) hs trivial
    h).1

/-- A month that has been posted stays as it is. -/
theorem monthRow_posted_of_accrual {day : ℤ} {amount : Cents}
    (hs : s.EarnsMonthly a account version)
    (hrow : s.MonthRow a account (firstOfMonth (monthOf day)) amount true) {n : ℕ × ℕ}
    (h : (runSavingsInterestAccrual (oneOClock day)).run s = (.ok n, t)) :
    t.MonthRow a account (firstOfMonth (monthOf day)) amount true := by
  have hrun := run_runSavingsInterestAccrual_induction (P := fun _ => True)
    (E := fun u => u.MonthRow a account (firstOfMonth (monthOf day)) amount true)
    (fun u u' _ hu hturn => by
      obtain ⟨e, he, hinstitution, hposted, hamount⟩ := hu
      obtain hsame | ⟨hopen, -⟩ := hturn.row
      · exact ⟨e, hsame.trans he, hinstitution, hposted, hamount⟩
      · exact absurd ⟨e, he, hposted⟩ hopen)
    (fun _ _ _ _ _ _ => trivial) (fun _ _ _ _ _ => trivial) hs hrow h
  exact hrun.2.1

/-- A month that has not been posted gets the interest of its days so far. -/
theorem monthRow_open_of_accrual {day : ℤ} (hs : s.EarnsMonthly a account version)
    (hopen : s.MonthOpen a account (firstOfMonth (monthOf day))) {n : ℕ × ℕ}
    (h : (runSavingsInterestAccrual (oneOClock day)).run s = (.ok n, t)) :
    t.MonthRow a account (firstOfMonth (monthOf day))
      (s.monthlyInterest a account version (oneOClock day) (firstOfMonth (monthOf day)) day)
      false := by
  have hwritten : ∀ u u', s.DayAccrued a day u →
      u.MonthOpen a account (firstOfMonth (monthOf day)) →
      u.WritesMonth a account version day u' →
      u'.MonthRow a account (firstOfMonth (monthOf day))
        (s.monthlyInterest a account version (oneOClock day) (firstOfMonth (monthOf day)) day)
        false := by
    rintro u u' hu hopen ⟨e, he, hposted, hamount, hinstitution⟩
    exact ⟨e, he, hinstitution fun e₀ he₀ => (hopen e₀ he₀).1, hposted,
      hamount.trans (hu.monthlyInterest ..)⟩
  have hrun := run_runSavingsInterestAccrual_induction
    (E := fun u => u.MonthOpen a account (firstOfMonth (monthOf day)))
    (P := fun u => u.MonthRow a account (firstOfMonth (monthOf day))
      (s.monthlyInterest a account version (oneOClock day) (firstOfMonth (monthOf day)) day) false)
    (fun u u' hu hopen hturn => by
      obtain hsame | ⟨-, hwrites⟩ := hturn.row
      · exact fun e he => hopen e (hsame.symm.trans he)
      · obtain ⟨e, he, hinstitution, hposted, -⟩ := hwritten u u' hu hopen hwrites
        intro e' he'
        rw [he, Option.some.injEq] at he'
        rw [← he']
        exact ⟨hinstitution, hposted⟩)
    (fun u u' hu hopen hrow hturn => by
      obtain hsame | ⟨-, hwrites⟩ := hturn.row
      · obtain ⟨e, he, hrest⟩ := hrow
        exact ⟨e, hsame.trans he, hrest⟩
      · exact hwritten u u' hu hopen hwrites)
    (fun u u' hu hopen hwrites => by
      apply hwritten u u' hu hopen
      apply hwrites
      rintro ⟨e, he, hposted⟩
      rw [(hopen e he).2] at hposted
      cases hposted)
    hs hopen h
  exact hrun.2.2

end Earning

end NexusEfos
