/-
What the reversal of a collected deposit takes back.

Recording a collected deposit moves the savings account and posts a journal; reversing it sets
the savings account back and posts nothing.  So the ledger is as it was before only if the
journal moved nothing, which takes one account under both purposes
(`reverseCollection_undoes_iff`).  A reversal looks at the status of the collection first and
sets it last, and two of them can take the money back twice; a run in which no reversal starts
while another one is on its way takes it back once.
-/
import NexusEfos.Library.History
import NexusEfos.Savings.GuardedPaths
import NexusEfos.Savings.Writes

namespace NexusEfos

open Proc

/-! ## Calls that run between -/

/-- A collection that is the one it was, and reversed if it was. -/
structure CollectionTransaction.Keeps (c c' : CollectionTransaction) : Prop where
  type_eq : c'.type = c.type
  target_eq : c'.targetId = c.targetId
  amount_eq : c'.amount = c.amount
  reversed : c.status = .reversed → c'.status = .reversed

theorem CollectionTransaction.Keeps.refl (c : CollectionTransaction) : c.Keeps c :=
  ⟨rfl, rfl, rfl, id⟩

theorem CollectionTransaction.Keeps.trans (a b c : CollectionTransaction) (h : a.Keeps b)
    (h' : b.Keeps c) : a.Keeps c where
  type_eq := h'.type_eq.trans h.type_eq
  target_eq := h'.target_eq.trans h.target_eq
  amount_eq := h'.amount_eq.trans h.amount_eq
  reversed := fun hreversed => h'.reversed (h.reversed hreversed)

/-- The collections are kept, and the savings accounts are there. -/
def Db.KeepsCollections (s t : Db) : Prop :=
  s.KeepsRows .collectionTransaction CollectionTransaction.Keeps t ∧
    s.KeepsRows .savingsAccount (fun _ _ => True) t

theorem Db.permits_keepsCollections {ms : List Model} (hm : Model.collectionTransaction ∉ ms) :
    Permits KeepsCollections ms :=
  (permits_keepsRows CollectionTransaction.Keeps.refl CollectionTransaction.Keeps.trans hm).and
    (permits_persist .savingsAccount ms)

theorem Db.KeepsCollections.refl (s : Db) : s.KeepsCollections s :=
  (permits_keepsCollections List.not_mem_nil).refl s

theorem Db.KeepsCollections.trans {s t u : Db} (h : s.KeepsCollections t)
    (h' : t.KeepsCollections u) : s.KeepsCollections u :=
  (permits_keepsCollections List.not_mem_nil).trans h h'

/-- The calls of a run: what moves customer balances, recordings and reversals of collections
among it, and any other code that keeps the collections. -/
inductive CollectionCall
  | move (op : SavingsOperation)
  | other (p : Handler Unit) (h : p.Every Db.KeepsCollections)

def CollectionCall.handler : CollectionCall → Handler Unit
  | move op => op.handler
  | other p _ => p

def collectionPool {ι : Type} (calls : ι → CollectionCall) (s : Db) :
    Pool ι Access Db Failure Unit :=
  ⟨fun i => (calls i).handler, s⟩

theorem recordCollection_keepsCollections (auth : Auth) (now : DateTime) (body : RecordCollection) :
    (recordCollection auth now body).Every Db.KeepsCollections := by
  apply recordCollection_every (Db.permits_keepsCollections (by decide))
  intro s row
  constructor
  · exact .insert CollectionTransaction.Keeps.refl s row
  · exact .of_table_eq (fun _ => trivial) (Db.table_insert_of_ne (by decide) s row)

theorem reverseCollection_keepsCollections (auth : Auth) (now : DateTime) (id : Id)
    (reason : String) : (reverseCollection auth now id reason).Every Db.KeepsCollections := by
  apply reverseCollection_every (Db.permits_keepsCollections (by decide))
  intro s
  constructor
  · apply Db.KeepsRows.modify CollectionTransaction.Keeps.refl
    intro row
    exact ⟨rfl, rfl, rfl, fun _ => rfl⟩
  · exact .of_table_eq (fun _ => trivial) (Db.table_modify_of_ne (by decide) s _ _)

theorem CollectionCall.keepsCollections (call : CollectionCall) :
    call.handler.Every Db.KeepsCollections := by
  cases call with
  | other p h => exact h
  | move op =>
    by_cases hwrites : Model.collectionTransaction ∉ op.writes
    · exact op.writes_handler.every _ (Db.permits_keepsCollections hwrites)
    cases op with
    | recordCollection auth now body =>
      exact (recordCollection_keepsCollections auth now body).bind fun _ => trivial
    | reverseCollection auth now id reason =>
      exact (reverseCollection_keepsCollections auth now id reason).bind fun _ => trivial
    | _ =>
      simp [SavingsOperation.writes, movementWrites, feeWrites, standingWrites,
        interestWrites] at hwrites

/-- What was there before a run is there after it. -/
theorem collectionPool_keeps {ι : Type} [DecidableEq ι] (calls : ι → CollectionCall) (s : Db)
    (sched : List ι) : s.KeepsCollections ((collectionPool calls s).run sched).state := by
  apply Pool.run_invariant (A := Db.KeepsCollections) (J := s.KeepsCollections)
  · exact fun t u hstep ht => ht.trans hstep
  · exact fun i => (calls i).keepsCollections
  · exact Db.KeepsCollections.refl s

/-! ## What a recording and a reversal do -/

section Balances

variable {s s₁ t t' : Db} {auth : Auth} {now : DateTime} {body : RecordCollection} {id : Id}

/-- The two accounts of the journal of a collected deposit. -/
structure CollectedPair (s : Db) (institutionId : Id) (custody liability : Id × GLAccount) :
    Prop where
  custody_mapped : s.savingsGLAccount? institutionId "Collector Cash Custody" = some custody.1
  liability_mapped :
    s.savingsGLAccount? institutionId "Customer Deposits Liability" = some liability.1
  custody_found : s.find? .gLAccount custody.1 = some custody.2
  liability_found : s.find? .gLAccount liability.1 = some liability.2

/-- The balances move by a relative update of one savings account and by a journal. -/
structure Db.MovesBy (s t : Db) (a : Id) (x : ℚ) (lines : List JournalLineInput) : Prop where
  found : (s.find? .savingsAccount a).isSome
  balance : ∀ a', t.balanceOf a' = if a' = a then increment (s.balanceOf a) x else s.balanceOf a'
  ledger : ∀ g, t.glBalance g = s.glBalance g + movementOf lines g

theorem isBalanced_doubleEntry {debited credited : Id × GLAccount} {x : ℚ}
    (h : isBalanced ((doubleEntry debited credited x).map JournalLineInput.toLineInput) = true) :
    0 < round (x * 100) := by
  have hpositive : (0 : ℚ) < round2 x := by
    simp only [isBalanced, doubleEntry, List.map_cons, List.map_nil, List.sum_cons, List.sum_nil,
      Bool.and_eq_true, decide_eq_true_eq, add_zero] at h
    exact h.2
  rw [round2_eq_toNumber] at hpositive
  exact toNumber_pos.mp hpositive

/-- The ledger after the journal of a collected deposit. -/
theorem CollectedPair.glBalance_applyEffects {institutionId : Id} {custody liability : Id × GLAccount}
    (h : CollectedPair s institutionId custody liability) (x : ℚ)
    (hsame : t.table .gLAccount = s.table .gLAccount) (g : Id) :
    (t.applyEffects (doubleEntry custody liability x)).glBalance g =
      t.glBalance g + movementOf (doubleEntry custody liability x) g := by
  have hrow : t.find? .gLAccount g = s.find? .gLAccount g := by
    rw [Db.find?, hsame, Db.find?]
  cases hg : s.find? .gLAccount g with
  | some account =>
    apply Db.glBalance_applyEffects
    rw [hrow, hg]
    rfl
  | none =>
    have hcustody : custody.1 ≠ g := by
      intro heq
      have hfound := h.custody_found
      rw [heq, hg] at hfound
      exact absurd hfound (by simp)
    have hliability : liability.1 ≠ g := by
      intro heq
      have hfound := h.liability_found
      rw [heq, hg] at hfound
      exact absurd hfound (by simp)
    rw [movementOf_doubleEntry, if_neg hcustody, if_neg hliability, Db.glBalance,
      Db.find?_applyEffects, Db.glBalance, hrow, hg]
    rfl

/-- What the branch of a collected deposit does when it succeeds. -/
theorem run_collectSavingsDeposit_eq_ok {u : Unit}
    (h : (collectSavingsDeposit auth now body).run s = (.ok u, t)) :
    ∃ custody liability, CollectedPair s auth.institutionId custody liability ∧
      0 < round (body.amount * 100) ∧
      s.MovesBy t body.targetId body.amount (doubleEntry custody liability body.amount) := by
  obtain ⟨account, hread, h₁⟩ := run_orFail_bind_eq_ok (run_query_bind h)
  obtain ⟨⟨custodyId, liabilityId⟩, hboth, h₂⟩ := run_orFail_bind_eq_ok (run_query_bind h₁)
  obtain ⟨hcustody, hliability⟩ := both_eq_some hboth
  obtain ⟨custody, hcustodyRow, h₃⟩ := run_findUniqueOrThrow_bind_eq_ok h₂
  obtain ⟨liability, hliabilityRow, h₄⟩ := run_findUniqueOrThrow_bind_eq_ok h₃
  obtain ⟨hbalanced, h₅⟩ := run_require_bind_eq_ok h₄
  obtain ⟨r, s₁, htx, h₆⟩ := run_bind_eq_ok h₅
  obtain ⟨acct, hacct, hagree⟩ := run_depositInTx_eq_ok (run_transaction_eq_ok htx)
  have ht : t = s₁ := (Prod.mk.inj h₆).2.symm
  subst ht
  have hpair : CollectedPair s auth.institutionId (custodyId, custody) (liabilityId, liability) :=
    ⟨hcustody, hliability, hcustodyRow, hliabilityRow⟩
  have hgl : ∀ a row, ((s.modify .savingsAccount a (SavingsAccount.increment body.amount)).insert
      .savingsTransaction row).table .gLAccount = s.table .gLAccount := by
    intro a row
    rw [Db.table_insert_of_ne (by decide), Db.table_modify_of_ne (by decide)]
  refine ⟨_, _, hpair, isBalanced_doubleEntry hbalanced, ?_⟩
  constructor
  · rw [hacct]
    rfl
  · intro a'
    rw [Db.balanceOf_agree hagree, Db.balanceOf_move hacct, Db.balanceOf_of_find? hacct]
  · intro g
    rw [Db.glBalance_congr (hagree _ (by decide)), Db.move,
      hpair.glBalance_applyEffects body.amount (hgl _ _)]
    exact congrArg (· + _) (Db.glBalance_congr (hgl _ _) g)

/-- Reversing a collected deposit sets its account back and leaves the ledger alone. -/
theorem run_reverseCollection_eq_ok {c c' : CollectionTransaction} {reason : String}
    (hc : t.find? .collectionTransaction id = some c) (htype : c.type = .savingsDeposit)
    (hfound : (t.find? .savingsAccount c.targetId).isSome)
    (h : (reverseCollection auth now id reason).run t = (.ok c', t')) :
    (∀ a, t'.balanceOf a = if a = c.targetId then t.balanceOf a - c.amount else t.balanceOf a) ∧
      ∀ g, t'.glBalance g = t.glBalance g := by
  obtain ⟨account, haccount⟩ := Option.isSome_iff_exists.mp hfound
  obtain ⟨-, h₁⟩ := run_require_bind_eq_ok h
  obtain ⟨c₀, hread, h₂⟩ := run_orFail_bind_eq_ok (run_query_bind h₁)
  rw [hc, Option.filter_eq_some_iff] at hread
  obtain rfl := Option.some.inj hread.1
  obtain ⟨-, h₃⟩ := run_require_bind_eq_ok h₂
  simp only [htype] at h₃
  have h₄ := run_query_bind h₃
  simp only [haccount] at h₄
  obtain ⟨u, t₁, htx, h₅⟩ := run_bind_eq_ok h₄
  obtain ⟨-, ht₁⟩ := run_setBalanceInTx_eq_ok (run_transaction_eq_ok htx)
  obtain ⟨row, -, h₆⟩ := run_updateAs_bind_eq_ok h₅
  have ht' := (Prod.mk.inj h₆).2.symm
  constructor
  · intro a
    rw [ht', Db.balanceOf_insert (by decide), Db.balanceOf_congr (Db.table_modify_of_ne (by decide) ..),
      ht₁, Db.balanceOf_insert (by decide), Db.balanceOf_modify haccount]
    by_cases ha : a = c.targetId
    · subst ha
      rw [if_pos rfl, if_pos rfl, Db.balanceOf_of_find? haccount]
      show ofNumber (toNumber account.balance - toNumber c.amount) = _
      rw [← toNumber_sub, ofNumber_toNumber]
    · rw [if_neg ha, if_neg ha]
  · intro g
    rw [ht', ht₁]
    apply Db.glBalance_congr
    rw [Db.table_insert_of_ne (by decide), Db.table_modify_of_ne (by decide),
      Db.table_insert_of_ne (by decide), Db.table_modify_of_ne (by decide)]

/-- A collected deposit that is recorded. -/
theorem run_recordCollection_eq_ok (htype : body.type = .savingsDeposit)
    (h : (recordCollection auth now body).run s = (.ok id, s₁)) :
    (∃ c, s₁.find? .collectionTransaction id = some c ∧ c.type = .savingsDeposit ∧
        c.targetId = body.targetId ∧ c.amount = ofNumber body.amount) ∧
      ∃ custody liability, CollectedPair s auth.institutionId custody liability ∧
        0 < round (body.amount * 100) ∧
        s.MovesBy s₁ body.targetId body.amount (doubleEntry custody liability body.amount) := by
  obtain ⟨-, h₁⟩ := run_require_bind_eq_ok h
  obtain ⟨collector, -, h₂⟩ := run_orFail_bind_eq_ok (run_query_bind h₁)
  obtain ⟨-, h₃⟩ := run_require_bind_eq_ok h₂
  obtain ⟨duplicate, t₁, hduplicate, h₄⟩ := run_bind_eq_ok h₃
  obtain rfl : t₁ = s := Writes.run_eq ((Writes.query _).bind fun _ => .pure _) hduplicate
  obtain ⟨-, h₅⟩ := run_require_bind_eq_ok h₄
  obtain ⟨_, t₂, hperiod, h₆⟩ := run_bind_eq_ok h₅
  obtain rfl : t₂ = t₁ := Writes.run_eq (Writes.requirePostablePeriod _ _) hperiod
  simp only [htype] at h₆
  obtain ⟨u, t₃, hcollect, h₇⟩ := run_bind_eq_ok h₆
  obtain ⟨custody, liability, hpair, hpositive, hmoves⟩ := run_collectSavingsDeposit_eq_ok hcollect
  obtain ⟨collection, t₄, hcreate, h₈⟩ := run_bind_eq_ok h₇
  obtain ⟨hcollection, ht₄⟩ := run_create_eq_ok hcreate
  obtain ⟨entry, t₅, hlog, h₉⟩ := run_bind_eq_ok h₈
  obtain ⟨-, ht₅⟩ := run_create_eq_ok hlog
  obtain ⟨hid, hs₁⟩ := Prod.mk.inj h₉
  obtain rfl := (Except.ok.inj hid).symm
  rw [← hs₁, ht₅, ht₄, hcollection]
  constructor
  · rw [Db.find?_insert_of_ne (by decide), Db.find?_insert, if_pos rfl]
    exact ⟨_, rfl, rfl, rfl, rfl⟩
  · refine ⟨custody, liability, hpair, hpositive, hmoves.found, ?_, ?_⟩
    · intro a
      rw [Db.balanceOf_insert (by decide), Db.balanceOf_insert (by decide)]
      exact hmoves.balance a
    · intro g
      rw [← hmoves.ledger g]
      apply Db.glBalance_congr
      rw [Db.table_insert_of_ne (by decide), Db.table_insert_of_ne (by decide)]

/-! ## When a reversal takes back what was recorded -/

/-- Between `s` and `s₁` a collection was recorded, between `t` and `t'` it was reversed, and the
one took back on every account what the other did. -/
structure Db.Undone (s s₁ t t' : Db) : Prop where
  savings : ∀ a, t'.balanceOf a - t.balanceOf a = -(s₁.balanceOf a - s.balanceOf a)
  ledger : ∀ g, t'.glBalance g - t.glBalance g = -(s₁.glBalance g - s.glBalance g)

/-- The custody account and the liability account are one, and the amount is no odd number of
half cents.  (An amount of half a cent has no effect on two accounts that both stand on the
wrong side of the ledger.) -/
def Db.ReversibleCollection (s : Db) (institutionId a : Id) (x : ℚ) : Prop :=
  ∃ custody ∈ s.savingsGLAccount? institutionId "Collector Cash Custody",
    ∃ liability ∈ s.savingsGLAccount? institutionId "Customer Deposits Liability",
      custody = liability ∧ ¬ IsHalfCent x ∨
        x * 100 = 1 / 2 ∧ (s.category? custody).map GLAccountCategory.side = some .credit ∧
          (s.category? liability).map GLAccountCategory.side = some .debit ∧ 0 ≤ s.balanceOf a

/-- Both lines on one account. -/
theorem movementOf_same (account : Id × GLAccount) (x : ℚ) (g : Id) :
    movementOf (doubleEntry account account x) g =
      if account.1 = g then round (x * 100) + round (-x * 100) else 0 := by
  rw [movementOf_doubleEntry]
  by_cases hg : account.1 = g
  · rw [if_pos hg, if_pos hg, if_pos hg]
    cases account.2.category.side with
    | debit => rfl
    | credit => exact add_comm _ _
  · rw [if_neg hg, if_neg hg, if_neg hg, add_zero]

/-- The journal of a collected deposit that moves nothing. -/
theorem CollectedPair.movementOf_eq_zero_iff {institutionId : Id} {custody liability : Id × GLAccount}
    (h : CollectedPair s institutionId custody liability) {x : ℚ} (hx : 0 < round (x * 100)) :
    (∀ g, movementOf (doubleEntry custody liability x) g = 0) ↔
      custody.1 = liability.1 ∧ ¬ IsHalfCent x ∨
        x * 100 = 1 / 2 ∧ custody.2.category.side = .credit ∧ liability.2.category.side = .debit := by
  by_cases hsame : custody.1 = liability.1
  · have hrow : liability.2 = custody.2 := by
      have hfound := h.custody_found
      rw [hsame, h.liability_found] at hfound
      exact Option.some.inj hfound
    obtain rfl : liability = custody := Prod.ext hsame.symm hrow
    have hzero : (∀ g, movementOf (doubleEntry liability liability x) g = 0) ↔ ¬ IsHalfCent x := by
      rw [IsHalfCent, ← round_add_round_neg_eq_zero_iff, ← neg_mul]
      constructor
      · intro hall
        have hone := hall liability.1
        rwa [movementOf_same, if_pos rfl] at hone
      · intro hsum g
        rw [movementOf_same, hsum, ite_self]
    rw [hzero]
    constructor
    · exact fun hhalf => .inl ⟨rfl, hhalf⟩
    · rintro (⟨-, hhalf⟩ | ⟨-, hcredit, hdebit⟩)
      · exact hhalf
      · rw [hdebit] at hcredit
        exact absurd hcredit (by decide)
  · constructor
    · intro hall
      have hfirst := hall custody.1
      have hsecond := hall liability.1
      rw [movementOf_debited hsame] at hfirst
      rw [movementOf_credited hsame] at hsecond
      right
      cases hcustody : custody.2.category.side with
      | debit =>
        rw [hcustody] at hfirst
        exact absurd hfirst hx.ne'
      | credit =>
        rw [hcustody] at hfirst
        cases hliability : liability.2.category.side with
        | debit => exact ⟨eq_half_of_round hx (by rwa [neg_mul] at hfirst), rfl, rfl⟩
        | credit =>
          rw [hliability] at hsecond
          exact absurd hsecond hx.ne'
    · rintro (⟨heq, -⟩ | ⟨hhalf, hcredit, hdebit⟩) g
      · exact absurd heq hsame
      · have hnone : round (-x * 100) = 0 := by
          rw [neg_mul, hhalf, round_eq_zero_iff]
          constructor <;> norm_num
        by_cases hcustody : g = custody.1
        · rw [hcustody, movementOf_debited hsame, hcredit]
          exact hnone
        · by_cases hliability : g = liability.1
          · rw [hliability, movementOf_credited hsame, hdebit]
            exact hnone
          · exact movementOf_other hcustody hliability x

/-- Half a cent is added in full unless the account is below zero. -/
theorem increment_half_eq_iff {x : ℚ} (hx : x * 100 = 1 / 2) (c : Cents) :
    increment c x = c + ofNumber x ↔ 0 ≤ c := by
  have hx₀ : x = 1 / 200 := by linarith
  constructor
  · intro h
    by_contra hneg
    have hc : (c : ℚ) ≤ -1 := by exact_mod_cast Int.le_sub_one_of_lt (not_le.mp hneg)
    have hsame : increment c x = c := by
      have hround : round (-((c : ℚ) + 1 / 2)) = -c := by
        rw [round_eq_iff]
        push_cast
        constructor <;> linarith
      have hbelow : (c : ℚ) + 1 / 2 < 0 := by linarith
      rw [increment, ofNumber, add_mul, toNumber_mul_hundred, hx, roundHalfAway_of_neg hbelow, hround,
        neg_neg]
    have hone : ofNumber x = 1 := by
      rw [ofNumber, hx, roundHalfAway_of_nonneg (by norm_num), round_eq_iff]
      norm_num
    rw [hsame, hone] at h
    linarith
  · intro hc
    apply increment_of_nonneg
    · rw [hx₀]
      norm_num
    · have hcn := toNumber_nonneg.mpr hc
      rw [hx₀]
      linarith

/-- Recorded and reversed with other calls in between. -/
theorem reversed_iff_undone {custody liability : Id × GLAccount} {a institutionId : Id} {x : ℚ}
    (hpair : CollectedPair s institutionId custody liability) (hx : 0 < round (x * 100))
    (hmoves : s.MovesBy s₁ a x (doubleEntry custody liability x))
    (hsavings : ∀ a', t'.balanceOf a' = if a' = a then t.balanceOf a' - ofNumber x
      else t.balanceOf a')
    (hledger : ∀ g, t'.glBalance g = t.glBalance g) :
    s.Undone s₁ t t' ↔ s.ReversibleCollection institutionId a x := by
  have hcustody : (s.category? custody.1).map GLAccountCategory.side =
      some custody.2.category.side := by
    rw [Db.category?, hpair.custody_found]
    rfl
  have hliability : (s.category? liability.1).map GLAccountCategory.side =
      some liability.2.category.side := by
    rw [Db.category?, hpair.liability_found]
    rfl
  have hundone : s.Undone s₁ t t' ↔
      increment (s.balanceOf a) x = s.balanceOf a + ofNumber x ∧
        ∀ g, movementOf (doubleEntry custody liability x) g = 0 := by
    constructor
    · intro h
      constructor
      · have hone := h.savings a
        rw [hsavings, if_pos rfl, hmoves.balance, if_pos rfl] at hone
        linarith
      · intro g
        have hone := h.ledger g
        rw [hledger, hmoves.ledger] at hone
        linarith
    · intro h
      constructor
      · intro a'
        rw [hsavings, hmoves.balance]
        by_cases ha : a' = a
        · rw [if_pos ha, if_pos ha, h.1, ha]
          ring
        · rw [if_neg ha, if_neg ha]
          ring
      · intro g
        rw [hledger, hmoves.ledger, h.2 g]
        ring
  have hcondition : s.ReversibleCollection institutionId a x ↔
      custody.1 = liability.1 ∧ ¬ IsHalfCent x ∨
        x * 100 = 1 / 2 ∧ custody.2.category.side = .credit ∧
          liability.2.category.side = .debit ∧ 0 ≤ s.balanceOf a := by
    unfold Db.ReversibleCollection
    rw [hpair.custody_mapped, hpair.liability_mapped]
    simp only [Option.mem_some_iff, exists_eq_left', hcustody, hliability, Option.some.injEq]
  rw [hundone, hpair.movementOf_eq_zero_iff hx, hcondition]
  constructor
  · rintro ⟨hadded, hone | ⟨hhalf, hcredit, hdebit⟩⟩
    · exact .inl hone
    · exact .inr ⟨hhalf, hcredit, hdebit, (increment_half_eq_iff hhalf _).mp hadded⟩
  · rintro (hone | ⟨hhalf, hcredit, hdebit, hbalance⟩)
    · exact ⟨increment_of_not_isHalfCent hone.2 _, .inl hone⟩
    · exact ⟨(increment_half_eq_iff hhalf _).mpr hbalance, .inr ⟨hhalf, hcredit, hdebit⟩⟩

end Balances

/-! ## How often a collection is reversed -/

/-- What happens to a collection: its money is taken back, it is marked as reversed. -/
inductive CollectionEvent
  | takenBack (id : Id)
  | marked (id : Id)
  deriving DecidableEq

/-- The collection is there and reversed. -/
def Db.Reversed (s : Db) (id : Id) : Prop :=
  ∃ c ∈ s.find? .collectionTransaction id, c.status = .reversed

instance (s : Db) (id : Id) : Decidable (s.Reversed id) :=
  inferInstanceAs (Decidable (∃ c ∈ s.find? .collectionTransaction id, c.status = .reversed))

/-- The money has been taken back when the movement has been written. -/
def collectionEvents (lab : Access) (s t : Db) : List CollectionEvent :=
  match lab.collection with
  | some (.takeBack id) =>
    if Db.Creates .savingsTransaction s t then [.takenBack id] else []
  | some (.mark id) => if t.Reversed id then [.marked id] else []
  | none => []

/-- A reversal takes money back only where no other reversal of the collection has been finished
or is on its way, and it marks a collection that is not marked. -/
def Access.ReversesAlone (past : List CollectionEvent) (lab : Access) (s : Db) : Prop :=
  match lab.collection with
  | some (.takeBack id) =>
    ¬ s.Reversed id ∧ (.takenBack id ∈ past → .marked id ∈ past)
  | some (.mark id) => ¬ s.Reversed id
  | none => True

instance (past : List CollectionEvent) (lab : Access) (s : Db) :
    Decidable (lab.ReversesAlone past s) := by
  unfold Access.ReversesAlone
  split <;> infer_instance

/-- A collection that has been marked is reversed, and nothing has happened twice. -/
structure ReversedOnce (s : Db) (past : List CollectionEvent) : Prop where
  marked : ∀ id, .marked id ∈ past → s.Reversed id
  nodup : past.Nodup

theorem Db.KeepsCollections.reversed {s t : Db} (h : s.KeepsCollections t) {id : Id}
    (hreversed : s.Reversed id) : t.Reversed id := by
  obtain ⟨c, hc, hstatus⟩ := hreversed
  obtain ⟨c', hc', hkeeps⟩ := h.1 id c hc
  exact ⟨c', hc', hkeeps.reversed hstatus⟩

/-- One statement. -/
theorem ReversedOnce.step {lab : Access} {s t : Db} {past : List CollectionEvent}
    (hkeeps : s.KeepsCollections t) (hlab : lab.ReversesAlone past s) (h : ReversedOnce s past) :
    ReversedOnce t (past ++ collectionEvents lab s t) := by
  have hold : ∀ id, .marked id ∈ past → t.Reversed id := fun id hid =>
    hkeeps.reversed (h.marked id hid)
  have hnone : ReversedOnce t (past ++ []) := by
    rw [List.append_nil]
    exact ⟨hold, h.nodup⟩
  unfold Access.ReversesAlone at hlab
  unfold collectionEvents
  split at hlab
  · next id _ =>
    split
    · have hnew : .takenBack id ∉ past := fun hmem => hlab.1 (h.marked id (hlab.2 hmem))
      constructor
      · intro id' hid'
        rw [List.mem_append, List.mem_singleton] at hid'
        rcases hid' with hid' | hid'
        · exact hold id' hid'
        · exact absurd hid' nofun
      · exact h.nodup.append (List.nodup_singleton _) (List.disjoint_singleton.mpr hnew)
    · exact hnone
  · next id _ =>
    split
    · next hreversed =>
      have hnew : .marked id ∉ past := fun hmem => hlab (h.marked id hmem)
      constructor
      · intro id' hid'
        rw [List.mem_append, List.mem_singleton] at hid'
        rcases hid' with hid' | hid'
        · exact hold id' hid'
        · obtain rfl := CollectionEvent.marked.inj hid'
          exact hreversed
      · exact h.nodup.append (List.nodup_singleton _) (List.disjoint_singleton.mpr hnew)
    · exact hnone
  · exact hnone

/-- A run in which every reversal is alone. -/
theorem collectionPool_reversedOnce {ι : Type} [DecidableEq ι] (calls : ι → CollectionCall) (s : Db)
    {sched : List ι}
    (halone : (collectionPool calls s).AllowedAfter collectionEvents
      (fun past lab s => lab.ReversesAlone past s) [] sched) :
    ((collectionPool calls s).history collectionEvents sched).Nodup := by
  have hstart : ReversedOnce s [] := ⟨fun _ hid => absurd hid List.not_mem_nil, List.nodup_nil⟩
  have hstep : ∀ (lab : Access) (t u : Db) (past : List CollectionEvent), t.KeepsCollections u →
      lab.ReversesAlone past t → ReversedOnce t past →
        ReversedOnce u (past ++ collectionEvents lab t u) :=
    fun _ _ _ _ hkeeps hlab h => h.step hkeeps hlab
  have hcalls : ∀ i, ((collectionPool calls s).threads i).EveryStep
      fun _ t u => t.KeepsCollections u :=
    fun i => Proc.EveryStep.of_every (fun _ _ _ h => h) ((calls i).keepsCollections)
  exact (Pool.run_history hstep hcalls hstart halone).nodup

/-- The reversal of a collected deposit takes back what was recorded, whatever ran in between,
exactly if custody and liability are one account and the amount is no odd number of half cents;
and if every reversal is alone, nothing is taken back and no collection is marked twice. -/
theorem reverseCollection_undoes_iff {ι : Type} [DecidableEq ι] :
    (∀ (auth : Auth) (now : DateTime) (body : RecordCollection) (s s₁ : Db) (id : Id),
      body.type = .savingsDeposit → (recordCollection auth now body).run s = (.ok id, s₁) →
      ∀ (calls : ι → CollectionCall) (sched : List ι) (auth' : Auth) (now' : DateTime)
        (reason : String) (c : CollectionTransaction) (t t' : Db),
        ((collectionPool calls s₁).run sched).state = t →
        (reverseCollection auth' now' id reason).run t = (.ok c, t') →
        (s.Undone s₁ t t' ↔
          s.ReversibleCollection auth.institutionId body.targetId body.amount)) ∧
    ∀ (calls : ι → CollectionCall) (s : Db) (sched : List ι),
      (collectionPool calls s).AllowedAfter collectionEvents
        (fun past lab s => lab.ReversesAlone past s) [] sched →
      ((collectionPool calls s).history collectionEvents sched).Nodup := by
  constructor
  · intro auth now body s s₁ id htype hrecord calls sched auth' now' reason c t t' ht hreverse
    obtain ⟨⟨recorded, hrow, hdeposit, htarget, hamount⟩, custody, liability, hpair, hpositive,
      hmoves⟩ := run_recordCollection_eq_ok htype hrecord
    -- The collection and its account are still there when the reversal starts.
    have hkept := collectionPool_keeps calls s₁ sched
    rw [ht] at hkept
    obtain ⟨later, hlater, hkeeps⟩ := hkept.1 id recorded hrow
    have hrecorded : s.KeepsCollections s₁ := by
      have hrun := (recordCollection_keepsCollections auth now body).run Db.KeepsCollections.refl
        Db.KeepsCollections.trans s
      rwa [hrecord] at hrun
    obtain ⟨acct, hacct⟩ := Option.isSome_iff_exists.mp hmoves.found
    obtain ⟨acct', hacct', -⟩ := (hrecorded.trans hkept).2 _ acct hacct
    have hfound : (t.find? .savingsAccount later.targetId).isSome := by
      rw [hkeeps.target_eq, htarget, hacct']
      rfl
    obtain ⟨hsavings, hledger⟩ := run_reverseCollection_eq_ok hlater
      (hkeeps.type_eq.trans hdeposit) hfound hreverse
    rw [hkeeps.target_eq, hkeeps.amount_eq, htarget, hamount] at hsavings
    exact reversed_iff_undone hpair hpositive hmoves hsavings hledger
  · intro calls s sched halone
    exact collectionPool_reversedOnce calls s halone

/-! ## A collection of 5.00 -/

/-- The institution with one account for the collectors and for what is owed to the customers. -/
def oneAccountLedger : Db :=
  tellerLedger.modify .savingsGLAccountMapping 2 fun m => { m with glAccountId := 3 }

/-- A collection of 5.00. -/
def fiveCollected : RecordCollection := ⟨.savingsDeposit, 1, 1, 1, 5⟩

/-- The books after the collection. -/
def afterCollection (s : Db) : Db := ((recordCollection ⟨1, 1⟩ 5 fiveCollected).run s).2

/-- The collection is reversed twice. -/
def twoReversals (_ : Bool) : CollectionCall := .move (.reverseCollection ⟨1, 2⟩ 6 1 "Entered twice")

theorem reverseCollection_undoes_oneAccount :
    (oneAccountLedger.Undone (afterCollection oneAccountLedger) (afterCollection oneAccountLedger)
      ((reverseCollection ⟨1, 2⟩ 6 1 "Entered twice").run (afterCollection oneAccountLedger)).2 ↔
        oneAccountLedger.ReversibleCollection 1 1 5) ∧
    ((collectionPool twoReversals (afterCollection oneAccountLedger)).history collectionEvents
      [false, false, false, false, false, true]).Nodup := by
  obtain ⟨hundoes, honce⟩ := reverseCollection_undoes_iff (ι := Bool)
  constructor
  · have hreverses : ((reverseCollection ⟨1, 2⟩ 6 1 "Entered twice").run
        (afterCollection oneAccountLedger)).1.toOption.isSome = true := by decide +kernel
    obtain ⟨c, hc⟩ := exists_run_eq_ok hreverses
    have hrecorded : ((recordCollection ⟨1, 1⟩ 5 fiveCollected).run oneAccountLedger).1.toOption =
        some 1 := by decide +kernel
    exact hundoes ⟨1, 1⟩ 5 fiveCollected oneAccountLedger (afterCollection oneAccountLedger) 1 rfl
      (run_eq_ok_of_toOption hrecorded) twoReversals [] ⟨1, 2⟩ 6 "Entered twice" c _ _ rfl hc
  · exact honce twoReversals _ _ (by decide +kernel)

/-- With two accounts the ledger stays as the collection left it, and two reversals that both
find the collection COMPLETED take its money back twice. -/
theorem reverseCollection_undoes_tooLittle_and_tooMuch :
    (∃ c t', (reverseCollection ⟨1, 2⟩ 6 1 "Entered twice").run (afterCollection tellerLedger) =
        (.ok c, t') ∧
      ¬ tellerLedger.Undone (afterCollection tellerLedger) (afterCollection tellerLedger) t') ∧
    ¬ ((collectionPool twoReversals (afterCollection tellerLedger)).history collectionEvents
      [false, true, false, false, false, false, true, true, true, true]).Nodup ∧
    ((collectionPool twoReversals (afterCollection tellerLedger)).run
      [false, true, false, false, false, false, true, true, true, true]).state.balanceOf 1 =
        tellerLedger.balanceOf 1 - 500 := by
  refine ⟨?_, by decide +kernel, by decide +kernel⟩
  have hreverses : ((reverseCollection ⟨1, 2⟩ 6 1 "Entered twice").run
      (afterCollection tellerLedger)).1.toOption.isSome = true := by decide +kernel
  obtain ⟨c, hc⟩ := exists_run_eq_ok hreverses
  refine ⟨c, _, hc, ?_⟩
  intro h
  have hcustody := h.ledger 2
  revert hcustody
  decide +kernel

end NexusEfos
