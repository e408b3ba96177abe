/-
Interest suspension: `POST /:accountId/suspend` and `POST /:accountId/resume` of
`routes/savings-interest.routes.ts`.

A run of accrual asks whether an account is suspended when it begins, and then accrues every day
since the last run.  So a day on which the account was suspended throughout is left out as long as
the suspension lasts, and accrued by the first run after it (`Db.Earns`).
-/
import NexusEfos.Savings.AccountSteps
import NexusEfos.Savings.PaidInterest
import NexusEfos.Savings.TierRates

namespace NexusEfos

open Proc

/-! ## Accruals before and after -/

/-- The positive accruals of an account are those that it had, and others for dates with `P`. -/
def Db.AccruesOnly (s t : Db) (a : Id) (P : DateTime → Prop) : Prop :=
  ∀ id row, t.find? .savingsInterestAccrual id = some row → row.accountId = a →
    0 < row.amountAccrued →
      P row.accrualDate ∨ ∃ row₀, s.find? .savingsInterestAccrual id = some row₀ ∧
        row₀.accountId = a ∧ row₀.accrualDate = row.accrualDate ∧
        row₀.amountAccrued = row.amountAccrued

namespace Db.AccruesOnly

variable {s t u : Db} {a : Id} {P : DateTime → Prop}

theorem of_find?_eq
    (h : ∀ id, t.find? .savingsInterestAccrual id = s.find? .savingsInterestAccrual id) :
    s.AccruesOnly t a P :=
  fun id row hrow ha _ => .inr ⟨row, h id ▸ hrow, ha, rfl, rfl⟩

theorem refl (s : Db) : s.AccruesOnly s a P := of_find?_eq fun _ => rfl

theorem trans (h : s.AccruesOnly t a P) (h' : t.AccruesOnly u a P) : s.AccruesOnly u a P := by
  intro id row hrow ha hpositive
  obtain hP | ⟨row₁, hrow₁, ha₁, hdate, hamount⟩ := h' id row hrow ha hpositive
  · exact .inl hP
  · obtain hP | ⟨row₀, hrow₀, ha₀, hdate₀, hamount₀⟩ := h id row₁ hrow₁ ha₁ (hamount ▸ hpositive)
    · exact .inl (hdate ▸ hP)
    · exact .inr ⟨row₀, hrow₀, ha₀, hdate₀.trans hdate, hamount₀.trans hamount⟩

theorem imp {Q : DateTime → Prop} (h : s.AccruesOnly t a P) (hPQ : ∀ date, P date → Q date) :
    s.AccruesOnly t a Q := by
  intro id row hrow ha hpositive
  obtain hP | hold := h id row hrow ha hpositive
  · exact .inl (hPQ _ hP)
  · exact .inr hold

/-- A row that is added, or written again for its account and date. -/
theorem withAccrual {new : SavingsInterestAccrual}
    (h : new.accountId = a → 0 < new.amountAccrued → P new.accrualDate) :
    s.AccruesOnly (s.withAccrual new) a P := by
  intro id row hrow ha hpositive
  unfold Db.withAccrual at hrow
  split at hrow
  · next found row₀ hfound =>
    have hsame : row₀.accountId = new.accountId ∧ row₀.accrualDate = new.accrualDate :=
      of_decide_eq_true (List.find?_some hfound :)
    have hrow₀ : s.find? .savingsInterestAccrual found = some row₀ :=
      OrderedMap.get?_eq_some.mpr (List.mem_of_find?_eq_some (hfound :))
    rw [Db.find?_modify] at hrow
    by_cases hid : id = found
    · rw [if_pos hid, hid, hrow₀, Option.map_some, Option.some.injEq] at hrow
      subst hrow
      left
      show P row₀.accrualDate
      rw [hsame.2]
      exact h (hsame.1.symm.trans ha) hpositive
    · rw [if_neg hid] at hrow
      exact .inr ⟨row, hrow, ha, rfl, rfl⟩
  · rw [Db.find?_insert] at hrow
    by_cases hid : id = s.nextId .savingsInterestAccrual
    · rw [if_pos hid, Option.some.injEq] at hrow
      subst hrow
      exact .inl (h ha hpositive)
    · rw [if_neg hid] at hrow
      exact .inr ⟨row, hrow, ha, rfl, rfl⟩

/-- Rows that are marked as posted, or not. -/
theorem modifyAll {f : Id → SavingsInterestAccrual → SavingsInterestAccrual}
    (h : ∀ id row, (f id row).accountId = row.accountId ∧
      (f id row).accrualDate = row.accrualDate ∧ (f id row).amountAccrued = row.amountAccrued) :
    s.AccruesOnly (s.modifyAll .savingsInterestAccrual f) a P := by
  intro id row hrow ha _
  rw [Db.find?_modifyAll, Option.map_eq_some_iff] at hrow
  obtain ⟨row₀, hrow₀, rfl⟩ := hrow
  obtain ⟨haccount, hdate, hamount⟩ := h id row₀
  exact .inr ⟨row₀, hrow₀, haccount.symm.trans ha, hdate.symm, hamount.symm⟩

end Db.AccruesOnly

/-! ## What a run of accrual comes to -/

/-- The tables a run of accrual reads for an account, and the accruals. -/
def accruedTables : List Model :=
  [.savingsAccount, .savingsTransaction, .productVersion, .savingsInterestAccrual]

/-- The same suspension and the same product. -/
def SavingsAccount.SameTerms (_ : Id) (acct acct' : SavingsAccount) : Prop :=
  acct'.interestSuspended = acct.interestSuspended ∧
    acct'.productVersionId = acct.productVersionId

namespace Db

/-- The interest of the account is suspended. -/
def interestSuspended (s : Db) (a : Id) : Bool :=
  (s.find? .savingsAccount a).any fun acct => acct.interestSuspended

/-- The days a run of daily accrual goes through. -/
def accrualDays (s : Db) (a : Id) (throughDate : DateTime) : List DateTime :=
  match s.find? .savingsAccount a with
  | some acct =>
    eachDay (startOfDay (acct.lastAccrualDate.getD (startOfDay throughDate)))
      (startOfDay throughDate)
  | none => []

/-- A run up to a date goes through a day, which has a balance. -/
def Earns (s : Db) (a : Id) (throughDate day : DateTime) : Prop :=
  s.interestSuspended a = false ∧ day ∈ s.accrualDays a throughDate ∧
    s.balanceAsOf a (endOfDay day) ≠ 0

/-- The interest of the account is worked out day by day. -/
def DailyBalance (s : Db) (a : Id) : Prop :=
  ∀ acct, s.find? .savingsAccount a = some acct → ∀ versionId,
    acct.productVersionId = some versionId → ∀ version,
      s.find? .productVersion versionId = some version → version.interestMethod = "DAILY_BALANCE"

/-- What a run of accrual changes, for one account. -/
structure AccruedFor (s t : Db) (a : Id) (P : DateTime → Prop) : Prop where
  terms : s.RelateAccounts SavingsAccount.SameTerms t
  frame : s.Agree [.savingsTransaction, .productVersion] t
  rows : s.AccruesOnly t a P

/-- A run of accrual for other accounts. -/
structure Untouched (a : Id) (s t : Db) : Prop where
  accrued : s.AccruedFor t a fun _ => False
  account : t.find? .savingsAccount a = s.find? .savingsAccount a

end Db

theorem SavingsAccount.SameTerms.refl (a : Id) (acct : SavingsAccount) :
    SavingsAccount.SameTerms a acct acct := ⟨rfl, rfl⟩

theorem Db.RelateAccounts.trans_terms {s t u : Db} (h : s.RelateAccounts SavingsAccount.SameTerms t)
    (h' : t.RelateAccounts SavingsAccount.SameTerms u) :
    s.RelateAccounts SavingsAccount.SameTerms u :=
  .trans (fun _ _ _ _ hxy hyz => ⟨hyz.1.trans hxy.1, hyz.2.trans hxy.2⟩) h h'

namespace Db.AccruedFor

variable {s t u : Db} {a : Id} {P Q : DateTime → Prop}

theorem refl (s : Db) : s.AccruedFor s a P :=
  ⟨.of_table_eq SavingsAccount.SameTerms.refl rfl, .refl s, .refl s⟩

theorem trans (h : s.AccruedFor t a P) (h' : t.AccruedFor u a P) : s.AccruedFor u a P :=
  ⟨h.terms.trans_terms h'.terms, h.frame.trans h'.frame, h.rows.trans h'.rows⟩

theorem imp (h : s.AccruedFor t a P) (hPQ : ∀ date, P date → Q date) : s.AccruedFor t a Q :=
  ⟨h.terms, h.frame, h.rows.imp hPQ⟩

theorem suspended (h : s.AccruedFor t a P) : t.interestSuspended a = s.interestSuspended a := by
  have hrel := h.terms a
  unfold Db.interestSuspended
  revert hrel
  generalize s.find? .savingsAccount a = x
  generalize t.find? .savingsAccount a = y
  intro hrel
  cases hrel with
  | some hxy => exact hxy.1
  | none => rfl

theorem balanceAsOf (h : s.AccruedFor t a P) (date : DateTime) :
    t.balanceAsOf a date = s.balanceAsOf a date := by
  unfold Db.balanceAsOf
  rw [h.frame .savingsTransaction (by decide)]

end Db.AccruedFor

/-- The product of an account stays as it is. -/
theorem Db.DailyBalance.of_terms {s t : Db} {a : Id} (hs : s.DailyBalance a)
    (hproducts : s.Agree [.productVersion] t)
    (hterms : s.RelateAccounts (fun _ acct acct' =>
      acct'.productVersionId = acct.productVersionId) t) : t.DailyBalance a := by
  intro acct' hacct' versionId hversionId version hversion
  obtain ⟨acct, hacct, hsame⟩ := hterms.before hacct'
  rw [hproducts.find? (by decide)] at hversion
  exact hs acct hacct versionId (hsame.symm.trans hversionId) version hversion

namespace Db.Untouched

variable {s t u : Db} {a : Id}

theorem refl (s : Db) : s.Untouched a s := ⟨.refl s, rfl⟩

theorem trans (h : s.Untouched a t) (h' : t.Untouched a u) : s.Untouched a u :=
  ⟨h.accrued.trans h'.accrued, h'.account.trans h.account⟩

theorem of_agree (h : s.Agree accruedTables t) : s.Untouched a t := by
  refine ⟨⟨?_, fun m hm => h m ?_, ?_⟩, h.find? (by decide) a⟩
  · exact .of_table_eq SavingsAccount.SameTerms.refl (h _ (by decide))
  · revert m
    decide
  · exact .of_find?_eq fun id => h.find? (by decide) id

/-- What a run would go through is the same after a run for other accounts. -/
theorem earns (h : s.Untouched a t) (throughDate : DateTime) :
    t.Earns a throughDate = s.Earns a throughDate := by
  funext day
  unfold Db.Earns Db.accrualDays
  rw [h.account, h.accrued.suspended, h.accrued.balanceAsOf]

end Db.Untouched

theorem Db.AccruedFor.of_agree {s t : Db} {a : Id} {P : DateTime → Prop}
    (h : s.Agree accruedTables t) : s.AccruedFor t a P :=
  (Db.Untouched.of_agree h).accrued.imp fun _ hfalse => hfalse.elim

theorem Db.AccruedFor.dailyBalance {s t : Db} {a : Id} {P : DateTime → Prop}
    (h : s.AccruedFor t a P) (hs : s.DailyBalance a) : t.DailyBalance a := by
  refine hs.of_terms (fun m hm => h.frame m (List.mem_cons_of_mem _ hm)) fun b => ?_
  have hrel := h.terms b
  revert hrel
  generalize s.find? .savingsAccount b = x
  generalize t.find? .savingsAccount b = y
  intro hrel
  cases hrel with
  | some hxy => exact .some hxy.2
  | none => exact .none

/-! ## The runs -/

section Runs

variable {s : Db} {a : Id} {now throughDate : DateTime}

theorem upsertAccrual_run (new : SavingsInterestAccrual) (s : Db) :
    ((upsertAccrual new).run s).2 = s.withAccrual new := by
  unfold upsertAccrual Db.withAccrual
  rw [Proc.run_exec]
  cases s.accrualOf new.accountId new.accrualDate with
  | some found => rfl
  | none => rfl

theorem accrued_withAccrual {P : DateTime → Prop} {new : SavingsInterestAccrual}
    (h : new.accountId = a → 0 < new.amountAccrued → P new.accrualDate) :
    s.AccruedFor (s.withAccrual new) a P := by
  have hframe : s.Agree [.savingsAccount, .savingsTransaction, .productVersion]
      (s.withAccrual new) := by
    unfold Db.withAccrual
    split
    · exact .modify (by decide) s _ _
    · exact .insert (by decide) s _
  refine ⟨?_, fun m hm => hframe m (List.mem_cons_of_mem _ hm), .withAccrual h⟩
  exact .of_table_eq SavingsAccount.SameTerms.refl (hframe _ (by decide))

/-- A run for another account. -/
theorem runAccrualForAccount_untouched {b : Id} (hb : b ≠ a) (now : DateTime) (institutionId : Id)
    (throughDate : DateTime) :
    (runAccrualForAccount now b institutionId throughDate).Every (Db.Untouched a) := by
  apply EveryStep.every
  apply runAccrualForAccount_everyStep fun _ _ _ h => .of_agree h
  · intro new hnew _ _
    refine ⟨fun s => ?_, fun _ => trivial⟩
    have hrun := upsertAccrual_run new s
    show s.Untouched a ((upsertAccrual new).run s).2
    rw [hrun]
    have haccrued : s.AccruedFor (s.withAccrual new) a fun _ => False :=
      accrued_withAccrual fun ha => absurd (hnew.symm.trans ha) hb
    refine ⟨haccrued, ?_⟩
    unfold Db.withAccrual
    split
    · rw [Db.find?_modify_of_ne (by decide)]
    · rw [Db.find?_insert_of_ne (by decide)]
  · intro throughDate
    have hupdate : ∀ s : Db, s.Untouched a (s.modify .savingsAccount b fun acct =>
        { acct with lastAccrualDate := some throughDate }) := by
      intro s
      refine ⟨⟨?_, .modify (by decide) s _ _, ?_⟩, ?_⟩
      · exact .modify SavingsAccount.SameTerms.refl fun acct _ => ⟨rfl, rfl⟩
      · exact .of_find?_eq fun id => Db.find?_modify_of_ne (by decide) ..
      · rw [Db.find?_modify, if_neg hb.symm]
    refine ⟨fun s => ?_, fun _ => ?_⟩
    · cases hrow : s.find? .savingsAccount b with
      | some row => simpa only [hrow] using hupdate s
      | none => simpa only [hrow] using Db.Untouched.refl s
    · trivial

/-- One day, which has a balance if its interest is positive. -/
theorem accrueDay_ends {P : DateTime → Prop} {accrualDate : DateTime}
    (h : s.balanceAsOf a (endOfDay accrualDate) ≠ 0 → P accrualDate) (now : DateTime)
    (institutionId : Id) (account : SavingsAccount) (version : Id × ProductVersion) :
    (accrueDay now a institutionId account version accrualDate).Ends
      (fun _ t => s.AccruedFor t a P) s := by
  apply ends_query
  split
  · exact .refl s
  · apply ends_query
    apply Ends.every Db.Agree.refl Db.Agree.trans (quiet_resolveEffectiveRate ..)
    · intro rate t ht
      apply (Db.AccruedFor.of_agree ht).trans
      show t.AccruedFor ((upsertAccrual _).run t).2 a P
      rw [upsertAccrual_run]
      apply accrued_withAccrual
      intro _ hpositive
      apply h
      intro hzero
      have hround : ofNumber (round2 (0 : ℚ)) = 0 := by
        rw [← toNumber_zero, round2_toNumber, ofNumber_toNumber]
      simp only [hzero, zero_mul, zero_div, hround, lt_self_iff_false] at hpositive
    · exact fun _ _ ht => .of_agree ht

theorem accrueDays_ends (now : DateTime) (institutionId : Id) {account : SavingsAccount}
    (haccount : s.find? .savingsAccount a = some account)
    (hsuspended : s.interestSuspended a = false) (version : Id × ProductVersion)
    (throughDate : DateTime) :
    (accrueDays now a institutionId account version throughDate).Ends
      (fun _ t => s.AccruedFor t a (s.Earns a throughDate)) s := by
  have hdays : ∀ days, (∀ day ∈ days, day ∈ s.accrualDays a throughDate) → ∀ t,
      s.AccruedFor t a (s.Earns a throughDate) →
        (Proc.mapEach days (accrueDay now a institutionId account version)).Ends
          (fun _ u => s.AccruedFor u a (s.Earns a throughDate)) t := by
    intro days hdays
    induction days with
    | nil => exact fun t ht => ht
    | cons day days ih =>
      rw [List.forall_mem_cons] at hdays
      intro t ht
      have hday : t.balanceAsOf a (endOfDay day) ≠ 0 → s.Earns a throughDate day := by
        rw [ht.balanceAsOf]
        exact fun hbalance => ⟨hsuspended, hdays.1, hbalance⟩
      apply (accrueDay_ends hday now institutionId account version).bind
      · intro row u hu
        apply (ih hdays.2 u (ht.trans hu)).bind
        · exact fun _ _ hv => hv
        · exact fun _ _ hv => hv
      · exact fun _ _ hu => ht.trans hu
  have hthrough : ∀ day ∈ eachDay (startOfDay (account.lastAccrualDate.getD
      (startOfDay throughDate))) (startOfDay throughDate), day ∈ s.accrualDays a throughDate := by
    unfold Db.accrualDays
    rw [haccount]
    exact fun _ hday => hday
  apply (hdays _ hthrough s (.refl s)).bind
  · exact fun _ _ ht => ht
  · exact fun _ _ ht => ht

theorem loadAccountWithProduct_ends (institutionId : Id) :
    (loadAccountWithProduct a institutionId).Ends (fun r t => t = s ∧
      ∀ account version, r = .ok (some (account, some version)) →
        s.find? .savingsAccount a = some account ∧ account.productVersionId = some version.1 ∧
          s.find? .productVersion version.1 = some version.2) s := by
  unfold loadAccountWithProduct
  apply ends_query
  cases hfound : (s.find? .savingsAccount a).filter fun acct =>
      decide (acct.institutionId = institutionId) with
  | none =>
    refine ⟨rfl, fun account version heq => ?_⟩
    have hnone : none = some (account, some version) := Except.ok.inj heq
    exact absurd hnone.symm (Option.some_ne_none _)
  | some account =>
    have haccount := (Option.filter_eq_some_iff.mp hfound).1
    dsimp only
    split
    · refine ⟨rfl, fun account' version heq => ?_⟩
      have hpair : some (account, none) = some (account', some version) := Except.ok.inj heq
      exact absurd (Prod.mk.inj (Option.some.inj hpair)).2.symm (Option.some_ne_none _)
    · next versionId hversionId =>
      apply ends_query
      refine ⟨rfl, fun account' version heq => ?_⟩
      have hpair : some (account, (s.find? .productVersion versionId).map fun v =>
          (versionId, v)) = some (account', some version) := Except.ok.inj heq
      rw [Option.some.injEq, Prod.mk.injEq, Option.map_eq_some_iff] at hpair
      obtain ⟨rfl, version', hversion, rfl⟩ := hpair
      exact ⟨haccount, hversionId, hversion⟩

/-- A run of accrual, for an account with daily accrual. -/
theorem runAccrualForAccount_ends (hdaily : s.DailyBalance a) (now : DateTime) (institutionId : Id)
    (throughDate : DateTime) :
    (runAccrualForAccount now a institutionId throughDate).Ends
      (fun _ t => s.AccruedFor t a (s.Earns a throughDate)) s := by
  apply (loadAccountWithProduct_ends institutionId).bind
  · rintro loaded t ⟨rfl, hloaded⟩
    split
    · next account version =>
      obtain ⟨haccount, hversionId, hversion⟩ := hloaded account version rfl
      split
      · exact .refl t
      · next hsuspended =>
        split
        · exact .refl t
        · have hdays : ¬ (version.2.interestMethod = "AVERAGE_DAILY_BALANCE" ∨
              version.2.interestMethod = "MINIMUM_MONTHLY_BALANCE") := by
            rw [hdaily account haccount _ hversionId _ hversion]
            decide
          have hflag : t.interestSuspended a = false := by
            unfold Db.interestSuspended
            rw [haccount]
            exact eq_false_of_ne_true hsuspended
          unfold accrueRows
          rw [if_neg hdays]
          apply (accrueDays_ends now institutionId haccount hflag version throughDate).bind
          · intro outcome u hu
            cases outcome with
            | skipped reason => exact hu
            | accruals rows =>
              apply ends_updateAs
              · intro row _
                apply hu.trans
                refine ⟨?_, .modify (by decide) u _ _, ?_⟩
                · exact .modify SavingsAccount.SameTerms.refl fun acct _ => ⟨rfl, rfl⟩
                · exact .of_find?_eq fun id => Db.find?_modify_of_ne (by decide) ..
              · exact fun _ => hu
          · exact fun _ _ hu => hu
    · exact .refl t
  · rintro e t ⟨rfl, -⟩
    exact .refl t

/-- Runs of accrual for several accounts, each once. -/
theorem accrueEach_ends {xs : List (Id × SavingsAccount)} (hnodup : (xs.map Prod.fst).Nodup)
    (hdaily : s.DailyBalance a) (now : DateTime) (institutionOf : Id × SavingsAccount → Id)
    (throughDate : DateTime) :
    (Proc.mapEach xs fun acc =>
      runAccrualForAccount now acc.1 (institutionOf acc) throughDate).Ends
        (fun _ t => s.AccruedFor t a (s.Earns a throughDate)) s := by
  induction xs generalizing s with
  | nil => exact .refl s
  | cons acc xs ih =>
    rw [List.map_cons, List.nodup_cons] at hnodup
    by_cases ha : acc.1 = a
    · -- The others are other accounts.
      have hothers : ∀ other ∈ xs,
          (runAccrualForAccount now other.1 (institutionOf other) throughDate).Every
            (Db.Untouched a) := by
        intro other hother
        apply runAccrualForAccount_untouched
        rintro rfl
        exact hnodup.1 (ha ▸ List.mem_map_of_mem hother)
      have hdone : ∀ {t u}, s.AccruedFor t a (s.Earns a throughDate) → t.Untouched a u →
          s.AccruedFor u a (s.Earns a throughDate) := fun ht hu =>
        ht.trans (hu.accrued.imp fun _ hfalse => hfalse.elim)
      have hfirst := runAccrualForAccount_ends hdaily now (institutionOf acc) throughDate
      rw [← ha] at hfirst ⊢
      apply hfirst.bind
      · intro outcome t ht
        rw [ha] at ht ⊢
        apply Ends.every Db.Untouched.refl Db.Untouched.trans (.mapEach hothers)
        · exact fun _ u hu => hdone ht hu
        · exact fun _ u hu => hdone ht hu
      · exact fun _ _ ht => ht
    · apply Ends.every Db.Untouched.refl Db.Untouched.trans
        (runAccrualForAccount_untouched ha now (institutionOf acc) throughDate)
      · intro outcome t ht
        have hrest := ih hnodup.2 (ht.accrued.dailyBalance hdaily)
        rw [ht.earns] at hrest
        have hfirst : s.AccruedFor t a (s.Earns a throughDate) :=
          ht.accrued.imp fun _ hfalse => hfalse.elim
        apply hrest.bind
        · exact fun _ _ hu => hfirst.trans hu
        · exact fun _ _ hu => hfirst.trans hu
      · exact fun _ _ ht => ht.accrued.imp fun _ hfalse => hfalse.elim

/-- What comes after a run of accrual. -/
theorem accrued_bind {P : DateTime → Prop} {α β : Type} {p : Handler α} {f : α → Handler β}
    (hp : p.Ends (fun _ t => s.AccruedFor t a P) s) (hf : ∀ b, Quiet accruedTables (f b)) :
    (p >>= f).Ends (fun _ t => s.AccruedFor t a P) s := by
  apply hp.bind
  · intro b t ht
    exact ht.trans (.of_agree (Every.run Db.Agree.refl Db.Agree.trans (hf b) t))
  · exact fun _ _ ht => ht

end Runs

/-! ## Transactions -/

section Transactions

variable {a : Id} {P : DateTime → Prop}

theorem Quiet.accruesOnly {α : Type} {p : Handler α} (hp : Quiet [.savingsInterestAccrual] p) :
    p.Every fun s t => s.AccruesOnly t a P :=
  Every.imp hp fun _ _ h => .of_find?_eq fun id => h.find? (by decide) id

/-- The accruals that a posting takes up, or gives back. -/
theorem updateMany_accruesOnly (p : Id → SavingsInterestAccrual → Bool) (posted : Bool)
    (postingId : Option Id) :
    (updateMany .savingsInterestAccrual p fun row =>
      { row with posted := posted, postingId := postingId }).Every
        fun s t => s.AccruesOnly t a P := by
  refine ⟨fun s => .modifyAll fun id row => ?_, fun _ => trivial⟩
  split
  · exact ⟨rfl, rfl, rfl⟩
  · exact ⟨rfl, rfl, rfl⟩

theorem postInterestForAccount_accruesOnly (now : DateTime) (accountId institutionId : Id)
    (postedById : Option Id) (batchId : Option String) :
    (postInterestForAccount now accountId institutionId postedById batchId).Every
      fun s t => s.AccruesOnly t a P := by
  refine (Quiet.query _).accruesOnly.bind fun unposted => ?_
  split
  · next first last _ _ =>
    dsimp only
    split
    · exact (Quiet.pure _).accruesOnly
    · refine (Quiet.findUniqueOrThrow _ _).accruesOnly.bind fun account => ?_
      refine Every.bind (.transaction .refl .trans _ ?_) fun _ => (Quiet.pure _).accruesOnly
      refine (Quiet.create (by decide) _).accruesOnly.bind fun txn => ?_
      refine (Quiet.update (by decide) _ _).accruesOnly.bind fun _ => ?_
      refine (Quiet.create (by decide) _).accruesOnly.bind fun postingId => ?_
      exact (updateMany_accruesOnly _ true (some postingId)).bind fun _ =>
        (Quiet.pure _).accruesOnly
  · exact (Quiet.pure _).accruesOnly

theorem reverseInterest_accruesOnly (auth : Auth) (now : DateTime) (postingId : Id)
    (reason : String) :
    (reverseInterest auth now postingId reason).Every fun s t => s.AccruesOnly t a P := by
  refine (Every.require _ _).bind fun _ => ?_
  refine (Quiet.query _).accruesOnly.bind fun found => ?_
  refine (Every.orFail _ _).bind fun posting => (Every.require _ _).bind fun _ => ?_
  refine (Quiet.findUniqueOrThrow _ _).accruesOnly.bind fun account => ?_
  refine Every.bind (.transaction .refl .trans _ ?_) fun _ =>
    (Quiet.create (by decide) _).accruesOnly.bind fun _ => (Quiet.pure _).accruesOnly
  refine (Quiet.create (by decide) _).accruesOnly.bind fun txn => ?_
  refine (Quiet.update (by decide) _ _).accruesOnly.bind fun _ => ?_
  refine (Quiet.update (by decide) _ _).accruesOnly.bind fun _ => ?_
  exact (updateMany_accruesOnly _ false none).bind fun _ => (Quiet.pure _).accruesOnly

/-- No transaction writes an accrual. -/
theorem SavingsOperation.accruesOnly (op : SavingsOperation) :
    op.handler.Every fun s t => s.AccruesOnly t a P := by
  have hquiet : Model.savingsInterestAccrual ∉ op.writes →
      op.handler.Every fun s t => s.AccruesOnly t a P := by
    intro h
    apply Quiet.accruesOnly
    apply op.writes_handler.quiet
    rintro m hm hmem
    rw [List.mem_singleton.mp hmem] at hm
    exact h hm
  cases op with
  | postInterest auth now accountId =>
    refine Every.bind (.bind (postInterestForAccount_accruesOnly ..) fun found => ?_) fun _ =>
      (Quiet.pure _).accruesOnly
    exact (Every.orFail _ _).bind fun _ =>
      (Quiet.create (by decide) _).accruesOnly.bind fun _ => (Quiet.pure _).accruesOnly
  | postAllInterest now institutionId postedById batchId =>
    refine Every.bind (.bind (Quiet.query _).accruesOnly fun accounts => ?_) fun _ =>
      (Quiet.pure _).accruesOnly
    exact Every.bind (.mapEach fun accountId _ => postInterestForAccount_accruesOnly ..) fun _ =>
      (Quiet.pure _).accruesOnly
  | reverseInterest auth now postingId reason => exact reverseInterest_accruesOnly ..
  | deposit | withdraw =>
    have hmovement : Model.savingsInterestAccrual ∉ movementWrites := by decide
    exact hquiet hmovement
  | chargeFee | waiveFee =>
    have hfee : Model.savingsInterestAccrual ∉ feeWrites := by decide
    exact hquiet hfee
  | runStandingInstructions now =>
    have hstanding : Model.savingsInterestAccrual ∉ standingWrites := by decide
    exact hquiet hstanding
  | recordCollection | reverseCollection =>
    have hcollected : Model.savingsInterestAccrual ∉ .collectionTransaction :: collectedWrites := by
      decide
    exact hquiet hcollected

/-- No transaction suspends the interest of an account, or gives it another product. -/
theorem SavingsOperation.sameTerms (op : SavingsOperation) (s : Db) :
    s.RelateAccounts SavingsAccount.SameTerms (op.handler.run s).2 := by
  apply op.run_accounts (A := fun _ _ => True)
    (I := fun t => s.RelateAccounts SavingsAccount.SameTerms t)
  · intro lab t t' _ hmoves ht
    apply ht.trans_terms
    intro b
    have hrel := hmoves b
    revert hrel
    generalize t.find? .savingsAccount b = x
    generalize t'.find? .savingsAccount b = y
    intro hrel
    cases hrel with
    | some hxy =>
      apply Option.Rel.some
      cases hxy with
      | same | overwritten | deposited | withdrew => exact ⟨rfl, rfl⟩
    | none => exact .none
  · exact .of_table_eq SavingsAccount.SameTerms.refl rfl
  · exact Proc.meets_true _ s

end Transactions

/-! ## The calls -/

/-- The calls that suspend and resume the interest of an account, accrue it, and move its
balance. -/
inductive SuspensionCall
  | suspend (auth : Auth) (accountId : Id) (reason : Option String)
  | resume (auth : Auth) (accountId : Id)
  | accrue (auth : Auth) (accountId : Id) (date : Option DateTime)
  | accrueAll (auth : Auth) (date : Option DateTime)
  | accrueScheduled
  | move (op : SavingsOperation)

namespace SuspensionCall

/-- The code a call runs at a time. -/
def handler (now : DateTime) : SuspensionCall → Handler Unit
  | suspend auth accountId reason => suspendInterest auth now accountId reason
  | resume auth accountId => resumeInterest auth accountId
  | accrue auth accountId date => discard (accrueInterest auth now accountId date)
  | accrueAll auth date => discard (accrueAllInterest auth now date)
  | accrueScheduled => discard (runSavingsInterestAccrual now)
  | move op => op.handler

/-- The date up to which a call accrues the interest of an account. -/
def accruesThrough (now : DateTime) (a : Id) : SuspensionCall → Option DateTime
  | accrue _ accountId date => if accountId = a then some (date.getD now) else none
  | accrueAll _ date => some (date.getD now)
  | accrueScheduled => some now
  | suspend .. | resume .. | move _ => none

variable {s : Db} {a : Id} {now : DateTime}

theorem accrueInterest_untouched {accountId : Id} (hother : accountId ≠ a) (auth : Auth)
    (now : DateTime) (date : Option DateTime) :
    (discard (accrueInterest auth now accountId date)).Every (Db.Untouched a) := by
  have hquiet : ∀ {α : Type} {p : Handler α}, Quiet accruedTables p → p.Every (Db.Untouched a) :=
    fun hp => Every.imp hp fun _ _ h => .of_agree h
  refine Every.bind (.bind (runAccrualForAccount_untouched hother _ _ _) fun result => ?_) fun _ =>
    hquiet (.pure _)
  exact hquiet ((Quiet.create (by decide) _).bind fun _ => .pure _)

/-- A call that accrues nothing for an account. -/
theorem accruesOnly_of_accruesThrough_eq_none (call : SuspensionCall)
    (hcall : call.accruesThrough now a = none) (s : Db) :
    s.AccruesOnly ((call.handler now).run s).2 a fun _ => False := by
  have hsuspension : ∀ auth accountId action data,
      (setInterestSuspension auth accountId action data).Every
        fun s t => s.AccruesOnly t a fun _ => False := by
    intro auth accountId action data
    apply Quiet.accruesOnly
    refine (Quiet.updateGuarded (by decide) _ _ _).bind fun found => ?_
    exact (Quiet.require _ _).bind fun _ => (Quiet.create (by decide) _).bind fun _ => .pure _
  cases call with
  | suspend => exact (hsuspension ..).run .refl .trans s
  | resume => exact (hsuspension ..).run .refl .trans s
  | accrue auth accountId date =>
    have hother : accountId ≠ a := by
      intro ha
      rw [accruesThrough, if_pos ha] at hcall
      cases hcall
    exact ((accrueInterest_untouched hother auth now date).run .refl .trans s).accrued.rows
  | accrueAll | accrueScheduled => cases hcall
  | move op => exact op.accruesOnly.run .refl .trans s

/-- A call that accrues the interest of an account. -/
theorem accrued_of_accruesThrough (call : SuspensionCall) {throughDate : DateTime}
    (hcall : call.accruesThrough now a = some throughDate) (hdaily : s.DailyBalance a) :
    s.AccruedFor ((call.handler now).run s).2 a (s.Earns a throughDate) := by
  have hlog : ∀ {α : Type} (row : AuditLog) (b : α), Quiet accruedTables (do
      let _ ← create .auditLog row
      return b : Handler α) := fun _ _ => (Quiet.create (by decide) _).bind fun _ => .pure _
  have hend : ∀ {α : Type} {p : Handler α},
      p.Ends (fun _ t => s.AccruedFor t a (s.Earns a throughDate)) s →
        (discard p).Ends (fun _ t => s.AccruedFor t a (s.Earns a throughDate)) s := fun hp =>
    accrued_bind hp fun _ => .pure _
  have hnodup : ∀ p : Id × SavingsAccount → Bool,
      (((s.table .savingsAccount).entries.filter p).map Prod.fst).Nodup := fun p =>
    ((s.table .savingsAccount).nodup_keys).sublist (List.filter_sublist.map _)
  cases call with
  | suspend | resume | move => cases hcall
  | accrue auth accountId date =>
    obtain ⟨rfl, hthrough⟩ := Option.ite_none_right_eq_some.mp hcall
    cases hthrough
    exact hend (accrued_bind (runAccrualForAccount_ends hdaily _ _ _) fun _ => hlog _ _)
  | accrueAll auth date =>
    cases hcall
    apply hend
    apply ends_query
    exact accrued_bind (accrueEach_ends (hnodup _) hdaily now (fun _ => auth.institutionId) _)
      fun _ => hlog _ _
  | accrueScheduled =>
    cases hcall
    apply hend
    apply ends_query
    exact accrued_bind (accrueEach_ends (hnodup _) hdaily now (fun acc => acc.2.institutionId) _)
      fun _ => .pure _

/-- A suspension, or its end, leaves the product of every account. -/
theorem setInterestSuspension_dailyBalance (auth : Auth) (accountId : Id) (action : String)
    {data : SavingsAccount → SavingsAccount}
    (hdata : ∀ acct, (data acct).productVersionId = acct.productVersionId)
    (hdaily : s.DailyBalance a) :
    ((setInterestSuspension auth accountId action data).run s).2.DailyBalance a := by
  have hevery : (setInterestSuspension auth accountId action data).Every
      fun s t => s.DailyBalance a → t.DailyBalance a := by
    refine Every.bind ⟨fun t => ?_, fun _ => trivial⟩ fun found => ?_
    rotate_left
    · refine (Every.require _ _).bind fun _ => Every.bind ⟨fun t ht => ?_, fun _ => trivial⟩ fun _ =>
        trivial
      apply ht.of_terms (.insert (by decide) t _)
      exact .of_table_eq (fun _ _ => rfl) (Db.table_insert_of_ne (by decide) ..)
    · have hwritten : t.DailyBalance a →
          (t.modify .savingsAccount accountId data).DailyBalance a := by
        intro ht
        apply ht.of_terms (.modify (by decide) t _ _)
        apply Db.RelateAccounts.modify
        · exact fun _ _ => rfl
        · exact fun acct _ => hdata acct
      cases h : t.find? .savingsAccount accountId with
      | some row =>
        by_cases hp : decide (row.institutionId = auth.institutionId) = true
        · simpa only [h, hp, if_true] using hwritten
        · simpa only [h, hp, Bool.false_eq_true, if_false] using id
      | none => simpa only [h] using id
  exact hevery.run (fun _ h => h) (fun hst htu h => htu (hst h)) s hdaily

/-- No call gives an account another product. -/
theorem dailyBalance (call : SuspensionCall) (hdaily : s.DailyBalance a) :
    ((call.handler now).run s).2.DailyBalance a := by
  cases hcall : call.accruesThrough now a with
  | some throughDate => exact (call.accrued_of_accruesThrough hcall hdaily).dailyBalance hdaily
  | none =>
    cases call with
    | suspend auth accountId reason =>
      exact setInterestSuspension_dailyBalance auth accountId _ (fun _ => rfl) hdaily
    | resume auth accountId =>
      exact setInterestSuspension_dailyBalance auth accountId _ (fun _ => rfl) hdaily
    | accrue auth accountId date =>
      have hother : accountId ≠ a := by
        intro ha
        rw [accruesThrough, if_pos ha] at hcall
        cases hcall
      have hrun := (accrueInterest_untouched hother auth now date).run .refl .trans s
      exact hrun.accrued.dailyBalance hdaily
    | accrueAll | accrueScheduled => cases hcall
    | move op =>
      have hproducts : Quiet [.productVersion] op.handler := op.quiet (by decide)
      apply hdaily.of_terms (Every.run Db.Agree.refl Db.Agree.trans hproducts s)
      intro b
      have hrel := op.sameTerms s b
      revert hrel
      generalize s.find? .savingsAccount b = x
      generalize (op.handler.run s).2.find? .savingsAccount b = y
      intro hrel
      cases hrel with
      | some hxy => exact .some hxy.2
      | none => exact .none

end SuspensionCall

/-! ## Runs in time -/

/-- The states of a run with the times they were reached at, the latest first. -/
abbrev Timeline := List (DateTime × Db)

/-- A run of calls, one after the other in the order of the clock, each of which is allowed. -/
inductive SuspensionRun (Allowed : Timeline → DateTime → SuspensionCall → Prop) (start : DateTime)
    (s : Db) : Timeline → Prop
  | start : SuspensionRun Allowed start s [(start, s)]
  | call {before : DateTime} {t : Db} {past : Timeline}
    (h : SuspensionRun Allowed start s ((before, t) :: past)) {now : DateTime}
    (hnow : before ≤ now) (call : SuspensionCall)
    (hallowed : Allowed ((before, t) :: past) now call) :
    SuspensionRun Allowed start s
      ((now, ((call.handler now).run t).2) :: (before, t) :: past)

/-- As far as the run goes, the account was suspended when the day began and ever since on that
day. -/
def SuspendedSoFar (a : Id) (line : Timeline) (day : DateTime) : Prop :=
  (∃ m ∈ line.find? fun m => m.1 ≤ day, m.2.interestSuspended a = true) ∧
    ∀ m ∈ line, day ≤ m.1 → m.1 < day + msPerDay → m.2.interestSuspended a = true

/-- The day is over, and the account was suspended throughout. -/
def SuspendedThroughout (a : Id) (line : Timeline) (day : DateTime) : Prop :=
  (∃ m ∈ line, day + msPerDay ≤ m.1) ∧ SuspendedSoFar a line day

instance (a : Id) (line : Timeline) (day : DateTime) : Decidable (SuspendedSoFar a line day) := by
  unfold SuspendedSoFar
  infer_instance

instance (a : Id) (line : Timeline) (day : DateTime) :
    Decidable (SuspendedThroughout a line day) := by
  unfold SuspendedThroughout
  infer_instance

/-- The positive accruals of the account that were not there at the start are for days on which it
was not suspended throughout. -/
def NoInterestWhileSuspended (a : Id) (s : Db) (line : Timeline) : Prop :=
  ∀ m ∈ line.head?, s.AccruesOnly m.2 a fun day => ¬ SuspendedThroughout a line day

/-- A call accrues no day that is still to come, and none with a balance on which the account was
suspended throughout. -/
def LeavesSuspendedDays (a : Id) (line : Timeline) (now : DateTime) (call : SuspensionCall) :
    Prop :=
  ∀ throughDate ∈ call.accruesThrough now a, ∀ m ∈ line.head?, ∀ day,
    m.2.Earns a throughDate day → day ≤ now ∧ ¬ SuspendedThroughout a line day

section Timelines

variable {a : Id} {line : Timeline} {before now day : DateTime} {s t u : Db}

/-- A day that has begun is suspended later on only if it was before. -/
theorem SuspendedSoFar.of_cons (h : SuspendedSoFar a ((now, u) :: (before, t) :: line) day)
    (hbegun : day ≤ before) (hnow : before ≤ now) :
    SuspendedSoFar a ((before, t) :: line) day := by
  obtain ⟨⟨m, hm, hsuspended⟩, hday⟩ := h
  refine ⟨?_, fun m hm => hday m (List.mem_cons_of_mem _ hm)⟩
  by_cases hlate : now ≤ day
  · -- Both calls are at the beginning of the day.
    have hsame : before = day := le_antisymm (hnow.trans hlate) hbegun
    refine ⟨(before, t), ?_, hday _ (List.mem_cons_of_mem _ (List.mem_cons_self ..)) hbegun ?_⟩
    · rw [List.find?_cons_of_pos (by simp [hsame])]
      rfl
    · rw [hsame]
      have hms : (0 : ℤ) < msPerDay := by decide
      exact lt_add_of_pos_right day hms
  · rw [List.find?_cons_of_neg (by simpa using hlate)] at hm
    exact ⟨m, hm, hsuspended⟩

/-- A day that has not begun is not suspended by a call that leaves the account unsuspended. -/
theorem not_suspendedSoFar (hbegins : before < day)
    (ht : t.interestSuspended a = false) (hu : u.interestSuspended a = false) :
    ¬ SuspendedSoFar a ((now, u) :: (before, t) :: line) day := by
  rintro ⟨⟨m, hm, hsuspended⟩, -⟩
  by_cases hlate : now ≤ day
  · rw [List.find?_cons_of_pos (by simpa using hlate), Option.mem_some_iff] at hm
    rw [← hm, hu] at hsuspended
    cases hsuspended
  · rw [List.find?_cons_of_neg (by simpa using hlate),
      List.find?_cons_of_pos (by simpa using hbegins.le), Option.mem_some_iff] at hm
    rw [← hm, ht] at hsuspended
    cases hsuspended

/-- A day that is not over is not suspended for an account that is not suspended now. -/
theorem not_suspendedSoFar_of_head (hbegun : day ≤ before) (hlasts : before < day + msPerDay)
    (ht : t.interestSuspended a = false) : ¬ SuspendedSoFar a ((before, t) :: line) day := by
  rintro ⟨-, hday⟩
  have hsuspended := hday _ (List.mem_cons_self ..) hbegun hlasts
  rw [ht] at hsuspended
  cases hsuspended

/-- The positive accruals that are new are for days that have begun, unsuspended so far. -/
def AccruedUnsuspended (a : Id) (s : Db) (line : Timeline) : Prop :=
  ∀ m ∈ line.head?, m.2.DailyBalance a ∧
    s.AccruesOnly m.2 a fun day => day ≤ m.1 ∧ ¬ SuspendedSoFar a line day

theorem AccruedUnsuspended.call (h : AccruedUnsuspended a s ((before, t) :: line))
    (hnow : before ≤ now) (call : SuspensionCall)
    (hallowed : LeavesSuspendedDays a ((before, t) :: line) now call) :
    AccruedUnsuspended a s ((now, ((call.handler now).run t).2) :: (before, t) :: line) := by
  obtain ⟨hdaily, hrows⟩ := h _ rfl
  rintro m hm
  cases hm
  refine ⟨call.dailyBalance hdaily, ?_⟩
  have hold : s.AccruesOnly t a fun day => day ≤ now ∧
      ¬ SuspendedSoFar a ((now, ((call.handler now).run t).2) :: (before, t) :: line) day :=
    hrows.imp fun day hday =>
      ⟨hday.1.trans hnow, fun hsofar => hday.2 (hsofar.of_cons hday.1 hnow)⟩
  cases hcall : call.accruesThrough now a with
  | none =>
    exact hold.trans ((call.accruesOnly_of_accruesThrough_eq_none hcall t).imp
      fun _ hfalse => hfalse.elim)
  | some throughDate =>
    have haccrued := call.accrued_of_accruesThrough hcall hdaily
    apply hold.trans
    apply haccrued.rows.imp
    intro day hearns
    obtain ⟨hbegun, hthroughout⟩ := hallowed throughDate hcall _ rfl day hearns
    refine ⟨hbegun, ?_⟩
    have ht : t.interestSuspended a = false := hearns.1
    have hu := haccrued.suspended.trans ht
    by_cases hbefore : day ≤ before
    · intro hsofar
      have hsofar' := hsofar.of_cons hbefore hnow
      by_cases hover : day + msPerDay ≤ before
      · exact hthroughout ⟨⟨_, List.mem_cons_self .., hover⟩, hsofar'⟩
      · exact not_suspendedSoFar_of_head hbefore (lt_of_not_ge hover) ht hsofar'
    · exact not_suspendedSoFar (lt_of_not_ge hbefore) ht hu

/-- In every run of suspensions, accruals and transactions whose accruals leave out the days to
come and the days on which the account was suspended throughout, no interest is accrued for such a
day. -/
theorem suspension_stops_interest (start : DateTime) (hdaily : s.DailyBalance a)
    (hrun : SuspensionRun (LeavesSuspendedDays a) start s line) :
    NoInterestWhileSuspended a s line := by
  have hinvariant : AccruedUnsuspended a s line := by
    induction hrun with
    | start =>
      intro m hm
      cases hm
      exact ⟨hdaily, .refl s⟩
    | call _ hnow call hallowed ih => exact ih.call hnow call hallowed
  intro m hm
  exact (hinvariant m hm).2.imp fun day hday hthroughout => hday.2 hthroughout.2

end Timelines

/-- An account whose interest is accrued day by day. -/
def dailyLedger : Db := tieredLedger "DAILY_BALANCE"

theorem dailyBalance_dailyLedger : dailyLedger.DailyBalance 1 := by
  intro acct hacct versionId hversionId version hversion
  cases hacct
  cases hversionId
  cases hversion
  rfl

/-- The state after a call. -/
def SuspensionCall.after (call : SuspensionCall) (now : DateTime) (s : Db) : Db :=
  ((call.handler now).run s).2

/-- Suspended on the first day and resumed on the second, with accruals before and after. -/
def overnight : Timeline :=
  let s₁ := SuspensionCall.accrueScheduled.after 0 dailyLedger
  let s₂ := (SuspensionCall.suspend ⟨1, 1⟩ 1 none).after 1 s₁
  let s₃ := (SuspensionCall.resume ⟨1, 1⟩ 1).after (msPerDay + 1) s₂
  let s₄ := SuspensionCall.accrueScheduled.after (msPerDay + 2) s₃
  [(msPerDay + 2, s₄), (msPerDay + 1, s₃), (1, s₂), (0, s₁), (0, dailyLedger)]

/-- The days of the accrual are looked at one by one. -/
theorem leavesSuspendedDays_scheduled {a : Id} {line : Timeline} {before now : DateTime} {t : Db}
    (h : ∀ day ∈ t.accrualDays a now, day ≤ now ∧
      ¬ SuspendedThroughout a ((before, t) :: line) day) :
    LeavesSuspendedDays a ((before, t) :: line) now .accrueScheduled := by
  intro throughDate hthrough m hm day hearns
  cases hthrough
  cases hm
  exact h day hearns.2.1

/-- The suspension covers neither of the two days. -/
theorem suspension_stops_interest_overnight :
    NoInterestWhileSuspended 1 dailyLedger overnight := by
  apply suspension_stops_interest 0 dailyBalance_dailyLedger
  have hfirst := SuspensionRun.call (.start : SuspensionRun (LeavesSuspendedDays 1) 0 dailyLedger _)
    (le_refl 0) .accrueScheduled (leavesSuspendedDays_scheduled (by decide +kernel))
  have hsuspended := hfirst.call (by decide : (0 : DateTime) ≤ 1) (.suspend ⟨1, 1⟩ 1 none) nofun
  have hresumed := hsuspended.call (by decide : 1 ≤ msPerDay + 1) (.resume ⟨1, 1⟩ 1) nofun
  exact hresumed.call (by decide : msPerDay + 1 ≤ msPerDay + 2) .accrueScheduled
    (leavesSuspendedDays_scheduled (by decide +kernel))

/-- Suspended on the first day and resumed on the third, with accruals before and after. -/
def longSuspension : Timeline :=
  let s₁ := SuspensionCall.accrueScheduled.after 0 dailyLedger
  let s₂ := (SuspensionCall.suspend ⟨1, 1⟩ 1 none).after 1 s₁
  let s₃ := (SuspensionCall.resume ⟨1, 1⟩ 1).after (2 * msPerDay) s₂
  let s₄ := SuspensionCall.accrueScheduled.after (2 * msPerDay) s₃
  [(2 * msPerDay, s₄), (2 * msPerDay, s₃), (1, s₂), (0, s₁), (0, dailyLedger)]

/-- The interest of the second day is accrued, on which the account was suspended throughout. -/
theorem suspension_stops_interest_fails :
    ¬ ∀ (a : Id) (start : DateTime) (s : Db) (line : Timeline), s.DailyBalance a →
      SuspensionRun (fun _ _ _ => True) start s line → NoInterestWhileSuspended a s line := by
  intro h
  have hfirst := SuspensionRun.call (.start : SuspensionRun (fun _ _ _ => True) 0 dailyLedger _)
    (le_refl 0) .accrueScheduled trivial
  have hsuspended := hfirst.call (by decide : (0 : DateTime) ≤ 1) (.suspend ⟨1, 1⟩ 1 none) trivial
  have hresumed := hsuspended.call (by decide : 1 ≤ 2 * msPerDay) (.resume ⟨1, 1⟩ 1) trivial
  have hrun := hresumed.call (le_refl (2 * msPerDay)) .accrueScheduled trivial
  have hrows := h 1 0 dailyLedger longSuspension dailyBalance_dailyLedger hrun _ rfl
  have hday : (longSuspension.head?.bind fun m =>
      (m.2.find? .savingsInterestAccrual 2).map fun row =>
        (row.accountId, row.accrualDate, row.amountAccrued)) = some (1, msPerDay, 1) := by
    decide +kernel
  obtain ⟨row, hrow, heq⟩ := Option.map_eq_some_iff.mp hday
  simp only [Prod.mk.injEq] at heq
  obtain ⟨haccount, hdate, hamount⟩ := heq
  obtain hnot | ⟨row₀, hrow₀, -⟩ := hrows 2 row hrow haccount (by rw [hamount]; decide)
  · rw [hdate] at hnot
    exact hnot (by decide +kernel)
  · cases hrow₀

end NexusEfos
