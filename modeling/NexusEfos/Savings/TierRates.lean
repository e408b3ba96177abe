/-
The rates of a product with tiers: `routes/products.routes.ts` and
`routes/savings-interest.routes.ts`.

Tiers that follow one another to the cent cover every amount of whole cents.  The average of the
balances of a month need not be whole cents: where it falls between the maximum of one tier and the
minimum of the next, no tier holds it and the rate of the product applies.
-/
import NexusEfos.Handlers
import NexusEfos.Loans.Lifecycle
import NexusEfos.Savings.Accruals
import Mathlib.Data.List.ReduceOption

namespace NexusEfos

/-! ## The endpoint -/

structure TierRequest where
  minBalance : ℚ
  maxBalance : Option ℚ := none
  interestRate : ℚ

/-- `POST /:id/tiers`, for a product whose current version is given. -/
def addInterestRateTier (auth : Auth) (productId : Id) (currentVersionId : Option Id)
    (request : TierRequest) : Handler Id := do
  Proc.require (0 ≤ request.minBalance ∧ (∀ max ∈ request.maxBalance, 0 ≤ max) ∧
    0 ≤ request.interestRate) .invalid
  let found ← findById .product productId fun p => p.institutionId = auth.institutionId
  let versionId ← Proc.orFail (found.bind fun _ => currentVersionId)
    (.http 404 "Product or current version not found")
  let tier ← create .interestRateTier
    { productVersionId := versionId, minBalance := ofNumber request.minBalance,
      maxBalance := request.maxBalance.map ofNumber,
      interestRate := toRateColumn request.interestRate }
  let _ ← create .auditLog
    { institutionId := auth.institutionId, userId := some auth.userId, action := "product.tier_add",
      resource := "product", resourceId := some productId }
  return tier

/-- Nothing negative is admitted. -/
theorem run_addInterestRateTier_eq_ok {s t : Db} {auth : Auth} {productId id : Id}
    {currentVersionId : Option Id} {request : TierRequest}
    (h : (addInterestRateTier auth productId currentVersionId request).run s = (.ok id, t)) :
    ∃ tier, t.find? .interestRateTier id = some tier ∧ 0 ≤ tier.minBalance ∧
      ∀ max ∈ tier.maxBalance, 0 ≤ max := by
  obtain ⟨hvalid, h⟩ := run_require_bind_eq_ok h
  have h := run_query_bind h
  obtain ⟨versionId, -, h⟩ := run_orFail_bind_eq_ok h
  obtain ⟨tier, u, hcreate, h⟩ := Proc.run_bind_eq_ok h
  obtain ⟨_, v, haudit, h⟩ := Proc.run_bind_eq_ok h
  obtain ⟨hid, rfl⟩ := Prod.mk.inj h
  obtain ⟨rfl, rfl⟩ := run_create_eq_ok hcreate
  obtain ⟨-, rfl⟩ := run_create_eq_ok haudit
  rw [← Except.ok.inj hid, Db.find?_insert_of_ne (by decide), Db.find?_insert, if_pos rfl]
  refine ⟨_, rfl, ofNumber_nonneg hvalid.1, ?_⟩
  intro max hmax
  obtain ⟨x, hx, rfl⟩ := Option.map_eq_some_iff.mp hmax
  exact ofNumber_nonneg (hvalid.2.1 x hx)

/-! ## Tiers to the cent -/

/-- The tiers, the lowest first, cover all amounts from a start on: each begins a cent after the
one before it, and only the last one is open. -/
def TiersFrom : Cents → List InterestRateTier → Prop
  | _, [] => False
  | start, tier :: rest => tier.minBalance = start ∧
    match tier.maxBalance with
    | none => rest = []
    | some max => TiersFrom (max + 1) rest

/-- The tiers are in the order of their minima. -/
def InOrderOfMinimum (tiers : List InterestRateTier) : Prop :=
  tiers.Pairwise fun a b => a.minBalance ≤ b.minBalance

/-- The tier has the greatest minimum that is not above the balance. -/
structure IsTierOf (tiers : List InterestRateTier) (balance : ℚ) (tier : InterestRateTier) :
    Prop where
  mem : tier ∈ tiers
  min_le : toNumber tier.minBalance ≤ balance
  greatest : ∀ other ∈ tiers, toNumber other.minBalance ≤ balance →
    other.minBalance ≤ tier.minBalance

/-- The balance is above the maximum of a tier by less than a cent. -/
def BetweenTiers (tiers : List InterestRateTier) (balance : ℚ) : Prop :=
  ∃ tier ∈ tiers, ∃ max ∈ tier.maxBalance,
    toNumber max < balance ∧ balance < toNumber (max + 1)

instance (tiers : List InterestRateTier) (balance : ℚ) : Decidable (BetweenTiers tiers balance) :=
  inferInstanceAs (Decidable (∃ tier ∈ tiers, ∃ max ∈ tier.maxBalance, _))

/-- The rate of the first tier that holds a balance, or else the base rate. -/
def tierRate (tiers : List InterestRateTier) (baseRate balance : ℚ) : ℚ :=
  match tiers.find? fun t => t.Holds balance with
  | some tier => tier.interestRate
  | none => baseRate

section Tiers

variable {tiers rest : List InterestRateTier} {tier : InterestRateTier} {start max : Cents}
  {balance : ℚ}

theorem TiersFrom.start_le (h : TiersFrom start tiers) (horder : InOrderOfMinimum tiers)
    (htier : tier ∈ tiers) : start ≤ tier.minBalance := by
  cases tiers with
  | nil => exact absurd htier List.not_mem_nil
  | cons first rest =>
    rw [← h.1]
    rcases List.mem_cons.mp htier with rfl | hrest
    · exact le_refl _
    · exact (List.pairwise_cons.mp horder).1 tier hrest

/-- A maximum is no less than the cent before the start. -/
theorem TiersFrom.start_le_max (h : TiersFrom start tiers)
    (horder : InOrderOfMinimum tiers) (htier : tier ∈ tiers) (hmax : tier.maxBalance = some max) :
    start ≤ max + 1 := by
  induction tiers generalizing start with
  | nil => exact absurd htier List.not_mem_nil
  | cons first rest ih =>
    have hrest := (List.pairwise_cons.mp horder).2
    have hcontiguous := h.2
    cases hfirst : first.maxBalance with
    | none =>
      rw [hfirst] at hcontiguous
      rcases List.mem_cons.mp htier with rfl | htier
      · rw [hmax] at hfirst
        exact absurd hfirst nofun
      · have hnil : rest = [] := hcontiguous
        rw [hnil] at htier
        exact absurd htier List.not_mem_nil
    | some max' =>
      rw [hfirst] at hcontiguous
      have hnext : TiersFrom (max' + 1) rest := hcontiguous
      -- The tier after the first one begins no earlier than it.
      have hstep : start ≤ max' + 1 := by
        cases rest with
        | nil => exact absurd hnext id
        | cons second rest =>
          rw [← h.1, ← hnext.1]
          exact (List.pairwise_cons.mp horder).1 second (List.mem_cons_self ..)
      rcases List.mem_cons.mp htier with rfl | htier
      · rw [hfirst] at hmax
        rw [← Option.some.inj hmax]
        exact hstep
      · exact hstep.trans (ih hnext hrest htier)

theorem tierRate_cons_of_holds (h : tier.Holds balance) (baseRate : ℚ) :
    tierRate (tier :: rest) baseRate balance = tier.interestRate := by
  unfold tierRate
  rw [List.find?_cons_of_pos (p := fun t : InterestRateTier => decide (t.Holds balance))
    (decide_eq_true h)]

theorem tierRate_cons_of_not_holds (h : ¬ tier.Holds balance) (baseRate : ℚ) :
    tierRate (tier :: rest) baseRate balance = tierRate rest baseRate balance := by
  unfold tierRate
  rw [List.find?_cons_of_neg (by simpa using h)]

theorem tierRate_of_below (h : ∀ t ∈ tiers, balance < toNumber t.minBalance) (baseRate : ℚ) :
    tierRate tiers baseRate balance = baseRate := by
  induction tiers with
  | nil => rfl
  | cons tier rest ih =>
    have hnot : ¬ tier.Holds balance :=
      fun hholds => absurd hholds.1 (not_le.mpr (h tier (List.mem_cons_self ..)))
    rw [tierRate_cons_of_not_holds hnot, ih fun t ht => h t (List.mem_cons_of_mem tier ht)]

/-- A balance of whole cents is not between two tiers. -/
theorem not_betweenTiers_of_wholeCent (h : WholeCent balance) : ¬ BetweenTiers tiers balance := by
  rintro ⟨tier, -, max, -, hmax, hnext⟩
  obtain ⟨c, rfl⟩ := h
  rw [toNumber_lt] at hmax hnext
  exact absurd (Int.lt_add_one_iff.mp hnext) (not_le.mpr hmax)

/-- Of tiers to the cent there is one that a balance belongs to.  Its rate applies if the balance
is not between two tiers, and else the base rate. -/
theorem exists_isTierOf (h : TiersFrom start tiers) (horder : InOrderOfMinimum tiers)
    (hstart : toNumber start ≤ balance) (baseRate : ℚ) :
    ∃ tier, IsTierOf tiers balance tier ∧
      tierRate tiers baseRate balance =
        if BetweenTiers tiers balance then baseRate else tier.interestRate := by
  induction tiers generalizing start with
  | nil => exact absurd h id
  | cons first rest ih =>
    have hcontiguous := h.2
    have hmin : toNumber first.minBalance ≤ balance := by
      rw [h.1]
      exact hstart
    obtain ⟨hfirst, hrest⟩ := List.pairwise_cons.mp horder
    cases hmax : first.maxBalance with
    | none =>
      -- The last tier is open.
      rw [hmax] at hcontiguous
      have hnil : rest = [] := hcontiguous
      subst hnil
      have hholds : first.Holds balance := ⟨hmin, by rw [hmax]; exact nofun⟩
      have hbetween : ¬ BetweenTiers [first] balance := by
        rintro ⟨tier, htier, max, hmax', -⟩
        rw [List.mem_singleton.mp htier, hmax] at hmax'
        exact absurd hmax' nofun
      refine ⟨first, ⟨List.mem_cons_self .., hmin, ?_⟩, ?_⟩
      · intro other hother _
        rw [List.mem_singleton.mp hother]
      · rw [tierRate_cons_of_holds hholds, if_neg hbetween]
    | some max =>
      rw [hmax] at hcontiguous
      have hnext : TiersFrom (max + 1) rest := hcontiguous
      have hlater : ∀ t ∈ rest, max + 1 ≤ t.minBalance := fun t ht => hnext.start_le hrest ht
      rcases le_or_gt balance (toNumber max) with hle | hgt
      · -- The first tier holds the balance, and all others begin above it.
        have hholds : first.Holds balance := by
          refine ⟨hmin, ?_⟩
          rw [hmax]
          intro max' hmax'
          rw [← Option.some.inj hmax']
          exact hle
        have habove : ∀ t ∈ rest, balance < toNumber t.minBalance := fun t ht =>
          hle.trans_lt (toNumber_lt.mpr (Int.lt_of_add_one_le (hlater t ht)))
        have hbetween : ¬ BetweenTiers (first :: rest) balance := by
          rintro ⟨tier, htier, max', hmax', hgt', -⟩
          have hmaxle : max ≤ max' := by
            rcases List.mem_cons.mp htier with rfl | htier
            · rw [hmax] at hmax'
              exact (Option.some.inj hmax').le
            · have hsucc := hnext.start_le_max hrest htier hmax'
              exact Int.le_of_add_le_add_right hsucc
          exact absurd (hgt'.trans_le hle) (not_lt.mpr (toNumber_le.mpr hmaxle))
        refine ⟨first, ⟨List.mem_cons_self .., hmin, ?_⟩, ?_⟩
        · intro other hother hothermin
          rcases List.mem_cons.mp hother with rfl | hother
          · exact le_refl _
          · exact absurd hothermin (not_le.mpr (habove other hother))
        · rw [tierRate_cons_of_holds hholds, if_neg hbetween]
      · have hnot : ¬ first.Holds balance := by
          intro hholds
          exact absurd (hholds.2 max hmax) (not_le.mpr hgt)
        rw [tierRate_cons_of_not_holds hnot]
        rcases le_or_gt (toNumber (max + 1)) balance with hreached | hgap
        · -- The balance belongs to a later tier.
          obtain ⟨tier, htier, hrate⟩ := ih hnext hrest hreached
          have hbetween : BetweenTiers (first :: rest) balance ↔ BetweenTiers rest balance := by
            constructor
            · rintro ⟨t, ht, max', hmax', hgt', hlt'⟩
              rcases List.mem_cons.mp ht with rfl | ht
              · rw [hmax] at hmax'
                rw [← Option.some.inj hmax'] at hlt'
                exact absurd hreached (not_le.mpr hlt')
              · exact ⟨t, ht, max', hmax', hgt', hlt'⟩
            · rintro ⟨t, ht, hgap⟩
              exact ⟨t, List.mem_cons_of_mem first ht, hgap⟩
          refine ⟨tier, ⟨List.mem_cons_of_mem first htier.mem, htier.min_le, ?_⟩, ?_⟩
          · intro other hother hothermin
            rcases List.mem_cons.mp hother with rfl | hother
            · exact hfirst tier htier.mem
            · exact htier.greatest other hother hothermin
          · rw [hrate]
            simp only [hbetween]
        · -- The balance is between the first tier and the next.
          have habove : ∀ t ∈ rest, balance < toNumber t.minBalance := fun t ht =>
            hgap.trans_le (toNumber_le.mpr (hlater t ht))
          have hbetween : BetweenTiers (first :: rest) balance :=
            ⟨first, List.mem_cons_self .., max, hmax, hgt, hgap⟩
          refine ⟨first, ⟨List.mem_cons_self .., hmin, ?_⟩, ?_⟩
          · intro other hother hothermin
            rcases List.mem_cons.mp hother with rfl | hother
            · exact le_refl _
            · exact absurd hothermin (not_le.mpr (habove other hother))
          · rw [tierRate_of_below habove, if_pos hbetween]

end Tiers

/-! ## The balances that are used -/

theorem mem_of_latestTransaction {ts : List SavingsTransaction} {t : SavingsTransaction}
    (h : latestTransaction ts = some t) : t ∈ ts := by
  induction ts generalizing t with
  | nil => exact absurd h nofun
  | cons first ts ih =>
    unfold latestTransaction at h
    split at h
    · rw [← Option.some.inj h]
      exact List.mem_cons_self ..
    · next later hlater =>
      split at h
      · rw [← Option.some.inj h]
        exact List.mem_cons_of_mem first (ih hlater)
      · rw [← Option.some.inj h]
        exact List.mem_cons_self ..

theorem balanceAsOf_nonneg {s : Db} {accountId : Id}
    (h : ∀ txn ∈ (s.table .savingsTransaction).values, txn.accountId = accountId →
      0 ≤ txn.balanceAfter) (date : DateTime) :
    0 ≤ s.balanceAsOf accountId date ∧ WholeCent (s.balanceAsOf accountId date) := by
  unfold Db.balanceAsOf
  split
  · next txn hlatest =>
    have hmem := List.mem_filter.mp (mem_of_latestTransaction hlatest)
    exact ⟨toNumber_nonneg.mpr (h txn hmem.1 (of_decide_eq_true hmem.2).1),
      wholeCent_toNumber _⟩
  · exact ⟨le_refl 0, WholeCent.zero⟩

theorem foldl_min_induction {P : ℚ → Prop} {xs : List ℚ} {x : ℚ} (hx : P x) (h : ∀ y ∈ xs, P y) :
    P (xs.foldl min x) := by
  induction xs generalizing x with
  | nil => exact hx
  | cons y xs ih =>
    apply ih
    · rcases min_choice x y with heq | heq
      · rw [heq]
        exact hx
      · rw [heq]
        exact h y (List.mem_cons_self ..)
    · exact fun z hz => h z (List.mem_cons_of_mem y hz)

theorem monthBalance_nonneg {xs : List ℚ} (h : ∀ x ∈ xs, 0 ≤ x) (method : String) :
    0 ≤ monthBalance method xs := by
  unfold monthBalance
  split
  · exact div_nonneg (List.sum_nonneg h) (Nat.cast_nonneg _)
  · cases xs with
    | nil => exact le_refl 0
    | cons x xs =>
      exact foldl_min_induction (h x (List.mem_cons_self ..)) fun y hy =>
        h y (List.mem_cons_of_mem x hy)

/-- The least of some balances is one of them. -/
theorem monthBalance_wholeCent {xs : List ℚ} (h : ∀ x ∈ xs, WholeCent x) {method : String}
    (hmethod : method ≠ "AVERAGE_DAILY_BALANCE") : WholeCent (monthBalance method xs) := by
  unfold monthBalance
  rw [if_neg hmethod]
  cases xs with
  | nil => exact WholeCent.zero
  | cons x xs =>
    exact foldl_min_induction (h x (List.mem_cons_self ..)) fun y hy =>
      h y (List.mem_cons_of_mem x hy)

namespace Db

/-- The opening balances of the days of a month. -/
def dayBalances (s : Db) (accountId : Id) (throughDate : DateTime) : List ℚ :=
  (eachDay (NexusEfos.startOfMonth throughDate)
    (min throughDate (NexusEfos.endOfMonth throughDate))).map fun d =>
      s.balanceAsOf accountId (startOfDay d)

/-- The balance that an accrual for a date uses. -/
def usedBalance (s : Db) (accountId : Id) (method : String) (throughDate accrualDate : DateTime) :
    ℚ :=
  if method = "AVERAGE_DAILY_BALANCE" ∨ method = "MINIMUM_MONTHLY_BALANCE" then
    monthBalance method (s.dayBalances accountId throughDate)
  else s.balanceAsOf accountId (endOfDay accrualDate)

end Db

section Used

variable {s : Db} {accountId : Id} {method : String}

theorem usedBalance_nonneg
    (h : ∀ txn ∈ (s.table .savingsTransaction).values, txn.accountId = accountId →
      0 ≤ txn.balanceAfter) (throughDate accrualDate : DateTime) :
    0 ≤ s.usedBalance accountId method throughDate accrualDate := by
  unfold Db.usedBalance
  split
  · apply monthBalance_nonneg
    intro x hx
    obtain ⟨d, -, rfl⟩ := List.mem_map.mp hx
    exact (balanceAsOf_nonneg h _).1
  · exact (balanceAsOf_nonneg h _).1

theorem usedBalance_wholeCent
    (h : ∀ txn ∈ (s.table .savingsTransaction).values, txn.accountId = accountId →
      0 ≤ txn.balanceAfter) (hmethod : method ≠ "AVERAGE_DAILY_BALANCE")
    (throughDate accrualDate : DateTime) :
    WholeCent (s.usedBalance accountId method throughDate accrualDate) := by
  unfold Db.usedBalance
  split
  · apply monthBalance_wholeCent _ hmethod
    intro x hx
    obtain ⟨d, -, rfl⟩ := List.mem_map.mp hx
    exact (balanceAsOf_nonneg h _).2
  · exact (balanceAsOf_nonneg h _).2

end Used

/-! ## The runs -/

/-- The tables that the rates and the balances come from. -/
def rateTables : List Model := [.savingsTransaction, .interestRateTier]

/-- The tiers of a product version, the lowest first. -/
def Db.tiersOf (s : Db) (versionId : Id) : List InterestRateTier :=
  (s.interestTiers versionId).map Prod.snd

theorem inOrderOfMinimum_tiersOf (s : Db) (versionId : Id) :
    InOrderOfMinimum (s.tiersOf versionId) := by
  have hsorted := List.pairwise_insertionSort
    (fun a b : Id × InterestRateTier => a.2.minBalance ≤ b.2.minBalance)
    ((s.table .interestRateTier).entries.filter fun t =>
      t.2.productVersionId = versionId ∧ t.2.deletedAt = none)
  exact List.pairwise_map.mpr hsorted

theorem Db.Agree.tiersOf {s t : Db} (h : s.Agree rateTables t) (versionId : Id) :
    t.tiersOf versionId = s.tiersOf versionId := by
  unfold Db.tiersOf interestTiers
  rw [h .interestRateTier (by decide)]

theorem Db.Agree.balanceAsOf {s t : Db} (h : s.Agree rateTables t) (accountId : Id)
    (date : DateTime) : t.balanceAsOf accountId date = s.balanceAsOf accountId date := by
  unfold Db.balanceAsOf
  rw [h .savingsTransaction (by decide)]

section Runs

variable {s t : Db} {now : DateTime} {accountId institutionId versionId : Id}
  {account : SavingsAccount} {version : ProductVersion} {throughDate : DateTime}

theorem run_resolveEffectiveRate (htiered : version.interestRateType = "TIERED")
    (hpromo : account.promotion now = none) (s : Db) (balance : ℚ) :
    (resolveEffectiveRate now account versionId version balance).run s =
      (.ok (tierRate (s.tiersOf versionId) version.interestRate balance), s) := by
  unfold resolveEffectiveRate tierRate Db.tiersOf
  have hread : ∀ {β : Type} (f : Db → β) (k : β → Handler ℚ),
      (query f >>= k).run s = (k (f s)).run s := fun _ _ => rfl
  rw [hpromo, List.find?_map]
  simp only [if_pos htiered]
  rw [hread]
  have hsame : (fun t : InterestRateTier => decide (t.Holds balance)) ∘ Prod.snd =
      fun t : Id × InterestRateTier => decide (t.2.Holds balance) := rfl
  rw [hsame]
  cases (s.interestTiers versionId).find? fun t => decide (t.2.Holds balance) with
  | none => rfl
  | some tier => rfl

theorem run_upsertAccrual_eq_ok {new : SavingsInterestAccrual} {row : Id × SavingsInterestAccrual}
    (h : (upsertAccrual new).run s = (.ok row, t)) :
    s.Agree rateTables t ∧ row.2.rateApplied = new.rateApplied ∧
      row.2.accrualDate = new.accrualDate := by
  unfold upsertAccrual at h
  rw [Proc.run_exec] at h
  cases hfound : s.accrualOf new.accountId new.accrualDate with
  | none =>
    rw [hfound] at h
    obtain ⟨hr, rfl⟩ := Prod.mk.inj h
    rw [← Except.ok.inj hr]
    exact ⟨.insert (by decide) s _, rfl, rfl⟩
  | some found =>
    rw [hfound] at h
    obtain ⟨hr, rfl⟩ := Prod.mk.inj h
    rw [← Except.ok.inj hr]
    have hdate : found.2.accountId = new.accountId ∧ found.2.accrualDate = new.accrualDate :=
      of_decide_eq_true (List.find?_some hfound :)
    exact ⟨.modify (by decide) s _ _, rfl, hdate.2⟩

/-- The rate of a row comes from the tiers, for the balance that it uses. -/
def RowRated (s : Db) (accountId : Id) (version : Id × ProductVersion) (throughDate : DateTime)
    (row : Id × SavingsInterestAccrual) : Prop :=
  row.2.rateApplied = tierRate (s.tiersOf version.1) version.2.interestRate
    (s.usedBalance accountId version.2.interestMethod throughDate row.2.accrualDate)

theorem run_accrueDay_eq_ok (htiered : version.interestRateType = "TIERED")
    (hpromo : account.promotion now = none)
    (hmethod : ¬ (version.interestMethod = "AVERAGE_DAILY_BALANCE" ∨
      version.interestMethod = "MINIMUM_MONTHLY_BALANCE"))
    {u u' : Db} (hu : s.Agree rateTables u) {accrualDate : DateTime}
    {row : Option (Id × SavingsInterestAccrual)}
    (h : (accrueDay now accountId institutionId account (versionId, version) accrualDate).run u =
      (.ok row, u')) :
    s.Agree rateTables u' ∧ ∀ r ∈ row, RowRated s accountId (versionId, version) throughDate r := by
  have h := run_query_bind h
  by_cases hposted : ∃ a ∈ u.accrualOf accountId accrualDate, a.2.posted = true
  · rw [if_pos hposted] at h
    obtain ⟨hr, rfl⟩ := Prod.mk.inj h
    rw [← Except.ok.inj hr]
    exact ⟨hu, nofun⟩
  · rw [if_neg hposted] at h
    have h := run_query_bind h
    rw [Proc.run_bind_ok (run_resolveEffectiveRate htiered hpromo u _)] at h
    obtain ⟨r, v, hupsert, hend⟩ := Proc.run_bind_eq_ok h
    obtain ⟨hr, rfl⟩ := Prod.mk.inj hend
    obtain ⟨hagree, hrate, hdate⟩ := run_upsertAccrual_eq_ok hupsert
    rw [← Except.ok.inj hr]
    refine ⟨hu.trans hagree, ?_⟩
    intro r' hr'
    rw [← Option.some.inj hr', RowRated, hrate, hdate, hu.tiersOf, hu.balanceAsOf, Db.usedBalance,
      if_neg hmethod]

theorem run_accrueMonth_eq_ok (htiered : version.interestRateType = "TIERED")
    (hpromo : account.promotion now = none)
    (hmethod : version.interestMethod = "AVERAGE_DAILY_BALANCE" ∨
      version.interestMethod = "MINIMUM_MONTHLY_BALANCE")
    {rows : List (Id × SavingsInterestAccrual)}
    (h : (accrueMonth now accountId institutionId account (versionId, version) throughDate).run s =
      (.ok (.accruals rows), t)) :
    ∀ r ∈ rows, RowRated s accountId (versionId, version) throughDate r := by
  have h := run_query_bind h
  by_cases hposted : ∃ a ∈ s.accrualOf accountId (startOfMonth throughDate), a.2.posted = true
  · rw [if_pos hposted] at h
    exact absurd (Except.ok.inj (congrArg Prod.fst h)) nofun
  · rw [if_neg hposted] at h
    have hread : (Proc.mapEach (eachDay (startOfMonth throughDate)
        (min throughDate (endOfMonth throughDate))) fun d =>
          getBalanceAsOf accountId (startOfDay d)).run s =
            (.ok (s.dayBalances accountId throughDate), s) := Proc.run_mapEach_ok fun _ _ => rfl
    rw [Proc.run_bind_ok hread,
      Proc.run_bind_ok (run_resolveEffectiveRate htiered hpromo s _)] at h
    obtain ⟨r, v, hupsert, hend⟩ := Proc.run_bind_eq_ok h
    obtain ⟨hr, rfl⟩ := Prod.mk.inj hend
    obtain ⟨-, hrate, -⟩ := run_upsertAccrual_eq_ok hupsert
    rw [← AccrualOutcome.accruals.inj (Except.ok.inj hr)]
    intro r' hr'
    rw [List.mem_singleton.mp hr', RowRated, hrate, Db.usedBalance, if_pos hmethod]

theorem run_accrueRows_eq_ok (htiered : version.interestRateType = "TIERED")
    (hpromo : account.promotion now = none) {rows : List (Id × SavingsInterestAccrual)}
    (h : (accrueRows now accountId institutionId account (versionId, version) throughDate).run s =
      (.ok (.accruals rows), t)) :
    ∀ r ∈ rows, RowRated s accountId (versionId, version) throughDate r := by
  unfold accrueRows at h
  by_cases hmethod : version.interestMethod = "AVERAGE_DAILY_BALANCE" ∨
      version.interestMethod = "MINIMUM_MONTHLY_BALANCE"
  · rw [if_pos hmethod] at h
    exact run_accrueMonth_eq_ok htiered hpromo hmethod h
  · rw [if_neg hmethod] at h
    obtain ⟨results, u, hdays, hend⟩ := Proc.run_bind_eq_ok h
    obtain ⟨hr, -⟩ := Prod.mk.inj hend
    have hall := (Proc.run_mapEach_eq_ok (I := fun u => s.Agree rateTables u)
      (Q := fun _ row => ∀ r ∈ row, RowRated s accountId (versionId, version) throughDate r)
      (fun _ _ _ _ _ hu hday => run_accrueDay_eq_ok htiered hpromo hmethod hu hday)
      (.refl s) hdays).2
    rw [← AccrualOutcome.accruals.inj (Except.ok.inj hr)]
    intro r hr'
    obtain ⟨-, -, hrated⟩ := hall _ (List.reduceOption_mem_iff.mp hr')
    exact hrated r rfl

theorem run_loadAccountWithProduct (haccount : s.find? .savingsAccount accountId = some account)
    (hversionId : account.productVersionId = some versionId)
    (hversion : s.find? .productVersion versionId = some version) :
    (loadAccountWithProduct accountId institutionId).run s =
      (.ok (if account.institutionId = institutionId then
        some (account, some (versionId, version)) else none), s) := by
  have hfound : (findById .savingsAccount accountId fun a =>
      a.institutionId = institutionId).run s =
        (.ok ((some account).filter fun a => a.institutionId = institutionId), s) := by
    rw [← haccount]
    rfl
  unfold loadAccountWithProduct
  rw [Proc.run_bind_ok hfound]
  by_cases hinstitution : account.institutionId = institutionId
  · have hkept : (some account).filter (fun a => a.institutionId = institutionId) =
        some account := by simp [hinstitution]
    have hread : (findUnique .productVersion versionId).run s = (.ok (some version), s) := by
      rw [run_findUnique, hversion]
    rw [hkept, if_pos hinstitution]
    simp only [hversionId]
    rw [Proc.run_bind_ok hread]
    rfl
  · have hdropped : (some account).filter (fun a => a.institutionId = institutionId) = none := by
      simp [hinstitution]
    rw [hdropped, if_neg hinstitution]
    rfl

/-- The rates of a run come from the tiers, each for the balance that its row uses. -/
theorem run_runAccrualForAccount_eq_ok
    (haccount : s.find? .savingsAccount accountId = some account)
    (hversionId : account.productVersionId = some versionId)
    (hversion : s.find? .productVersion versionId = some version)
    (htiered : version.interestRateType = "TIERED") (hpromo : account.promotion now = none)
    {rows : List (Id × SavingsInterestAccrual)}
    (h : (runAccrualForAccount now accountId institutionId throughDate).run s =
      (.ok (.accruals rows), t)) :
    ∀ r ∈ rows, RowRated s accountId (versionId, version) throughDate r := by
  have hskipped : ∀ {reason : String} {u : Db},
      (pure (AccrualOutcome.skipped reason) : Handler AccrualOutcome).run u ≠
        (.ok (.accruals rows), t) :=
    fun heq => absurd (Except.ok.inj (congrArg Prod.fst heq)) nofun
  unfold runAccrualForAccount at h
  rw [Proc.run_bind_ok (run_loadAccountWithProduct haccount hversionId hversion)] at h
  by_cases hinstitution : account.institutionId = institutionId
  · rw [if_pos hinstitution] at h
    dsimp only at h
    by_cases hsuspended : account.interestSuspended = true
    · rw [if_pos hsuspended] at h
      exact absurd h hskipped
    · rw [if_neg hsuspended] at h
      by_cases hstatus : account.status ≠ .active
      · rw [if_pos hstatus] at h
        exact absurd h hskipped
      · rw [if_neg hstatus] at h
        obtain ⟨outcome, u, hrows, hend⟩ := Proc.run_bind_eq_ok h
        cases outcome with
        | skipped reason => exact absurd hend hskipped
        | accruals rows' =>
          obtain ⟨_, u', -, hlast⟩ := Proc.run_bind_eq_ok hend
          have heq := AccrualOutcome.accruals.inj (Except.ok.inj (Prod.mk.inj hlast).1)
          rw [← heq]
          exact run_accrueRows_eq_ok htiered hpromo hrows
  · rw [if_neg hinstitution] at h
    exact absurd h hskipped

end Runs

/-- A product with a tier up to 100.00 and one from 100.01 on, and an account that opens the first
day of a month with 100.00 and the second with 100.01. -/
def tieredLedger (method : String) : Db :=
  (((((Db.empty.insert .productVersion
    { productId := 1, interestRate := 1, interestMethod := method,
      interestRateType := "TIERED" }).insert .interestRateTier
    { productVersionId := 1, minBalance := 0, maxBalance := some 10000,
      interestRate := 2 }).insert .interestRateTier
    { productVersionId := 1, minBalance := 10001, interestRate := 3 }).insert .savingsAccount
    { institutionId := 1, customerId := 1, productVersionId := some 1 }).insert .savingsTransaction
    { accountId := 1, type := .deposit, amount := 10000, balanceAfter := 10000,
      createdAt := 0 }).insert .savingsTransaction
    { accountId := 1, type := .deposit, amount := 1, balanceAfter := 10001, createdAt := 1 }

theorem tiersFrom_tieredLedger (method : String) :
    TiersFrom 0 ((tieredLedger method).tiersOf 1) := ⟨rfl, rfl, rfl⟩

theorem balances_tieredLedger (method : String) :
    ∀ txn ∈ ((tieredLedger method).table .savingsTransaction).values, txn.accountId = 1 →
      0 ≤ txn.balanceAfter := by
  have hvalues : ((tieredLedger method).table .savingsTransaction).values =
      ((tieredLedger "").table .savingsTransaction).values := rfl
  rw [hvalues]
  decide +kernel

/-- The rates of a run that was not skipped. -/
def AccrualOutcome.rates : AccrualOutcome → Option (List ℚ)
  | skipped _ => none
  | accruals rows => some (rows.map fun r => r.2.rateApplied)

theorem exists_accruals_of_rates {p : Handler AccrualOutcome} {s : Db} {rates : List ℚ}
    (h : (p.run s).1.toOption.bind AccrualOutcome.rates = some rates) :
    ∃ rows t, p.run s = (.ok (.accruals rows), t) ∧ rows.map (fun r => r.2.rateApplied) = rates := by
  match hrun : p.run s with
  | (.error e, t) =>
    rw [hrun] at h
    exact absurd h nofun
  | (.ok (.skipped reason), t) =>
    rw [hrun] at h
    exact absurd h nofun
  | (.ok (.accruals rows), t) =>
    rw [hrun] at h
    exact ⟨rows, t, rfl, Option.some.inj h⟩

end NexusEfos
