/-
The operations on savings accounts follow the protocol of the books.
-/
import NexusEfos.Savings.Books
import NexusEfos.Savings.Interest
import NexusEfos.Savings.StandingInstructions

namespace NexusEfos

open Proc

variable {allowed : BooksKind → Prop}

theorem writes_refuse {ms : List Model} (message : Option String) :
    Writes ms (refuse message) := by
  cases message with
  | some m => exact Writes.fail _
  | none => exact Writes.pure _

theorem quiet_refuse {watched : List Model} (message : Option String) :
    Quiet watched (refuse message) :=
  (writes_refuse message : Writes [] _).quiet fun _ hmem => absurd hmem List.not_mem_nil

section Deposits

variable {s : Db} {auth : Auth} {now : DateTime} {a : Id} {x : ℚ} {description : String}
  {money liability : Id × GLAccount}

/-- What the transaction of a deposit does when it succeeds. -/
theorem run_depositInTx_eq_ok {r : SavingsAccount × Id} {s' : Db} {lines : List JournalLineInput}
    (h : (depositInTx auth now a x description lines).run s = (.ok r, s')) :
    ∃ acct, s.find? .savingsAccount a = some acct ∧
      (s.move a x ⟨a, .deposit, ofNumber x, increment acct.balance x, some auth.userId, now⟩
        lines).Agree books s' := by
  obtain ⟨acct', s₁, h₁, h⟩ := run_bind_eq_ok h
  obtain ⟨acct, hacct, rfl, rfl⟩ := run_update_eq_ok h₁
  obtain ⟨t, s₂, h₂, h⟩ := run_bind_eq_ok h
  obtain ⟨rfl, rfl⟩ := run_create_eq_ok h₂
  obtain ⟨j, s₃, h₃, h⟩ := run_bind_eq_ok h
  obtain ⟨-, -, rfl⟩ := run_postJournal_eq_ok h₃
  obtain ⟨-, rfl⟩ := Prod.mk.inj h
  refine ⟨acct, hacct, ?_⟩
  exact (Db.Agree.insert (by decide) _ _).applyEffects_congr lines

/-- An account found at commit has the owner it had when it was read. -/
theorem Db.Evolves.institution_eq {s t : Db} (h : s.Evolves t) {institutionId : Id}
    {acct : SavingsAccount} (howner : s.owner? a = some institutionId)
    (hacct : t.find? .savingsAccount a = some acct) : acct.institutionId = institutionId := by
  have hboth := h.owners a
  rw [howner, owner?, hacct] at hboth
  exact Option.some.inj hboth

/-- The statement with which a deposit commits. -/
theorem follows_depositInTx {α : Type} {k : SavingsAccount × Id → Handler α}
    {Q : Db → (Id → Cents) → Except Failure α → Prop} {d : Id → Cents} {posting : Option Posting}
    (hkind : allowed (.deposited x)) (hx : 0 < x)
    {institutionId : Id} (howner : s.owner? a = some institutionId)
    (hpair : SavingsPair s institutionId money liability)
    (hk : ∀ t r, (k r).Follows (booksProtocol allowed) Q t d) (hQ : ∀ t e, Q t d (.error e)) :
    (transaction { increments := [(a, x)], posting } (depositInTx auth now a x description
      (doubleEntry money liability x)) >>= k).Follows (booksProtocol allowed) Q s d := by
  refine Follows.transaction ?_ fun t e _ => ⟨.quiet (Db.Agree.refl t), hQ t e⟩
  intro t r t' ht hrun
  obtain ⟨acct, hacct, hagree⟩ := run_depositInTx_eq_ok hrun
  have hinst := ht.institution_eq howner hacct
  subst hinst
  exact ⟨d, (Db.Evolves.move t a x _ _).trans (Db.Evolves.of_agree hagree),
    .deposited hkind rfl hx hacct (hpair.of_evolves ht) hagree, hk t' r⟩

/-- What the transaction of a withdrawal does when it succeeds. -/
theorem run_withdrawInTx_eq_ok {r : SavingsAccount × Id} {s' : Db}
    {lines : List JournalLineInput}
    (h : (withdrawInTx auth now a x description lines).run s = (.ok r, s')) :
    ∃ acct, s.find? .savingsAccount a = some acct ∧ x ≤ toNumber acct.balance ∧
      (s.move a (-x) ⟨a, .withdrawal, ofNumber x, increment acct.balance (-x), some auth.userId, now⟩
        lines).Agree books s' := by
  obtain ⟨updated, s₁, h₁, h⟩ := run_bind_eq_ok h
  obtain ⟨hupdated, hrest⟩ := run_require_bind_eq_ok h
  subst hupdated
  obtain ⟨acct, hacct, hfunds, rfl⟩ := run_updateGuarded_eq_true h₁
  obtain ⟨acct', s₃, h₃, h⟩ := run_bind_eq_ok hrest
  obtain ⟨hacct', rfl⟩ := run_findUniqueOrThrow_eq_ok h₃
  rw [Db.find?_modify, if_pos rfl, hacct] at hacct'
  cases hacct'
  obtain ⟨t, s₄, h₄, h⟩ := run_bind_eq_ok h
  obtain ⟨rfl, rfl⟩ := run_create_eq_ok h₄
  obtain ⟨j, s₅, h₅, h⟩ := run_bind_eq_ok h
  obtain ⟨-, -, rfl⟩ := run_postJournal_eq_ok h₅
  obtain ⟨-, rfl⟩ := Prod.mk.inj h
  refine ⟨acct, hacct, by simpa using hfunds, ?_⟩
  exact (Db.Agree.insert (by decide) _ _).applyEffects_congr lines

/-- The statement with which a withdrawal commits. -/
theorem follows_withdrawInTx {α : Type} {k : SavingsAccount × Id → Handler α}
    {Q : Db → (Id → Cents) → Except Failure α → Prop} {d : Id → Cents} {posting : Option Posting}
    (hkind : allowed (.withdrew x)) (hx : 0 < x)
    {institutionId : Id} (howner : s.owner? a = some institutionId)
    (hpair : SavingsPair s institutionId money liability)
    (hk : ∀ t r, (k r).Follows (booksProtocol allowed) Q t d) (hQ : ∀ t e, Q t d (.error e)) :
    (transaction { increments := [(a, -x)], posting } (withdrawInTx auth now a x description
      (doubleEntry liability money x)) >>= k).Follows (booksProtocol allowed) Q s d := by
  refine Follows.transaction ?_ fun t e _ => ⟨.quiet (Db.Agree.refl t), hQ t e⟩
  intro t r t' ht hrun
  obtain ⟨acct, hacct, hfunds, hagree⟩ := run_withdrawInTx_eq_ok hrun
  have hinst := ht.institution_eq howner hacct
  subst hinst
  exact ⟨d, (Db.Evolves.move t a (-x) _ _).trans (Db.Evolves.of_agree hagree),
    .withdrew hkind rfl hx hacct hfunds (hpair.of_evolves ht) hagree, hk t' r⟩

end Deposits

/-- An account read under a condition has the institution the condition asks
for. -/
theorem owner_of_filter {s : Db} {a institutionId : Id} {acct : SavingsAccount}
    {p : SavingsAccount → Bool} (h : (s.find? .savingsAccount a).filter p = some acct)
    (hp : ∀ r, p r = true → r.institutionId = institutionId) :
    s.owner? a = some institutionId := by
  obtain ⟨hfind, hpa⟩ := Option.filter_eq_some_iff.mp h
  rw [Db.owner?, hfind, Option.map_some, hp acct hpa]

/-- The reading of the two accounts of a journal. -/
theorem follows_journalAccounts {α : Type} {i j : Id} {k : GLAccount → GLAccount → Handler α}
    {Q : Db → (Id → Cents) → Except Failure α → Prop} {s : Db} {d : Id → Cents}
    (hk : ∀ t A B, s.Evolves t → t.category? i = some A.category →
      t.category? j = some B.category → (k A B).Follows (booksProtocol allowed) Q t d)
    (hQ : ∀ t e, Q t d (.error e)) :
    (findUniqueOrThrow .gLAccount i >>= fun A => findUniqueOrThrow .gLAccount j >>= fun B =>
      k A B).Follows (booksProtocol allowed) Q s d := by
  have hW := booksProtocol_watches allowed
  refine hW.findUniqueOrThrow (fun s₁ A h₁ hA => ?_) fun t => hQ t _
  refine hW.findUniqueOrThrow (fun s₂ B h₂ hB => ?_) fun t => hQ t _
  refine hk s₂ A B (h₁.trans h₂) ?_ ?_
  · rw [h₂.chart, Db.category?, hA]
    rfl
  · rw [Db.category?, hB]
    rfl

theorem deposit_keepsBooks (auth : Auth) (now : DateTime) (a : Id) (x : ℚ)
    (hkind : allowed (.deposited x)) :
    KeepsBooks allowed (deposit auth now a x) := by
  intro s
  have hW := booksProtocol_watches allowed
  refine Follows.require (fun hx => ?_) fun _ => rfl
  refine hW.query fun s₁ h₁ => ?_
  refine Follows.orFail (fun acct hacct => ?_) fun _ => rfl
  have howner : s₁.owner? a = some auth.institutionId := owner_of_filter hacct (by simp)
  refine hW.quiet ((Quiet.query _).bind fun _ => Quiet.pure _) (fun s₂ message h₂ => ?_)
    fun _ _ => rfl
  refine hW.quiet (quiet_refuse message) (fun s₃ _ h₃ => ?_) fun _ _ => rfl
  refine hW.query fun s₄ h₄ => ?_
  refine Follows.orFail (fun r hr => ?_) fun _ => rfl
  obtain ⟨hcash, hliability⟩ := both_eq_some hr
  refine hW.quiet (Quiet.requirePostablePeriod _ _) (fun s₅ _ h₅ => ?_) fun _ _ => rfl
  refine follows_journalAccounts (fun s₆ cash liability h₆ hcashA hliabilityA => ?_)
    fun _ _ => rfl
  refine Follows.require (fun _ => ?_) fun _ => rfl
  have h₄₆ : s₄.Evolves s₆ := h₅.trans h₆
  have h₁₆ : s₁.Evolves s₆ := h₂.trans (h₃.trans (h₄.trans h₄₆))
  have hpair : SavingsPair s₆ auth.institutionId (r.1, cash) (r.2, liability) :=
    ⟨.inl ((h₄₆.savingsGLAccount? _ _).trans hcash),
      (h₄₆.savingsGLAccount? _ _).trans hliability, hcashA, hliabilityA⟩
  refine follows_depositInTx hkind hx ((h₁₆.owners a).trans howner) hpair (fun t r => ?_) fun _ _ => rfl
  exact hW.quiet_end ((Quiet.create (by decide) _).bind fun _ => Quiet.pure _) fun _ _ _ => rfl

theorem withdraw_keepsBooks (auth : Auth) (now : DateTime) (a : Id) (x : ℚ)
    (hkind : allowed (.withdrew x)) :
    KeepsBooks allowed (withdraw auth now a x) := by
  intro s
  have hW := booksProtocol_watches allowed
  refine Follows.require (fun hx => ?_) fun _ => rfl
  refine hW.query fun s₁ h₁ => ?_
  refine Follows.orFail (fun acct hacct => ?_) fun _ => rfl
  have howner : s₁.owner? a = some auth.institutionId := owner_of_filter hacct (by simp)
  refine hW.quiet ((Quiet.query _).bind fun _ => Quiet.pure _) (fun s₂ message h₂ => ?_)
    fun _ _ => rfl
  refine hW.quiet (quiet_refuse message) (fun s₃ _ h₃ => ?_) fun _ _ => rfl
  refine hW.query fun s₄ h₄ => ?_
  refine Follows.orFail (fun r hr => ?_) fun _ => rfl
  obtain ⟨hcash, hliability⟩ := both_eq_some hr
  refine hW.quiet (Quiet.requirePostablePeriod _ _) (fun s₅ _ h₅ => ?_) fun _ _ => rfl
  refine follows_journalAccounts (fun s₆ cash liability h₆ hcashA hliabilityA => ?_)
    fun _ _ => rfl
  refine Follows.require (fun _ => ?_) fun _ => rfl
  have h₄₆ : s₄.Evolves s₆ := h₅.trans h₆
  have h₁₆ : s₁.Evolves s₆ := h₂.trans (h₃.trans (h₄.trans h₄₆))
  have hpair : SavingsPair s₆ auth.institutionId (r.1, cash) (r.2, liability) :=
    ⟨.inl ((h₄₆.savingsGLAccount? _ _).trans hcash),
      (h₄₆.savingsGLAccount? _ _).trans hliability, hcashA, hliabilityA⟩
  refine follows_withdrawInTx hkind hx ((h₁₆.owners a).trans howner) hpair (fun t r => ?_)
    fun _ _ => rfl
  exact hW.quiet_end ((Quiet.create (by decide) _).bind fun _ => Quiet.pure _) fun _ _ _ => rfl

/-! ## The absolute writers -/

/-- The statement with which an absolute writer commits. -/
theorem follows_overwrite {α β : Type} {body : Handler β} {k : β → Handler α}
    {Q : Db → (Id → Cents) → Except Failure α → Prop} {s : Db} {d : Id → Cents}
    {os : List Overwrite} (d' : Id → Cents) (rows : List SavingsTransaction)
    (repayments : List LoanRepayment) {executes : Option (ScheduledItem × DateTime)}
    {interest : Option InterestMove} {collection : Option CollectionMove}
    (hkind : allowed .overwrote)
    (hbody : ∀ t b t', body.run t = (.ok b, t') →
      (∀ o ∈ os, (t.find? .savingsAccount o.accountId).isSome) ∧
        (((t.overwrite os).insertAll .savingsTransaction rows).insertAll .loanRepayment
          repayments).Agree books t')
    (hd : ∀ a, d' a + intended os a = d a + signedSum rows a)
    (hk : ∀ t b, (k b).Follows (booksProtocol allowed) Q t d') (hQ : ∀ t e, Q t d (.error e)) :
    (transaction
      { overwrites := os, unallocated := repayments.map fun r => (r.loanId, r.amount), executes,
        interest, collection } body >>= k).Follows (booksProtocol allowed) Q s d := by
  refine Follows.transaction ?_ fun t e _ => ⟨.quiet (Db.Agree.refl t), hQ t e⟩
  intro t b t' _ hrun
  obtain ⟨hfound, hagree⟩ := hbody t b t' hrun
  refine ⟨d', ?_, .overwrote hkind rfl hfound hagree hd, hk t' b⟩
  exact (Db.Evolves.overwrite t os).trans
    ((Db.Evolves.insertAll (m := .savingsTransaction) (by decide) _ rows).trans
      ((Db.Evolves.insertAll (m := .loanRepayment) (by decide) _ repayments).trans
        (Db.Evolves.of_agree hagree)))

/-- An absolute writer that makes one movement and records it. -/
theorem follows_overwrite_one {α β : Type} {body : Handler β} {k : β → Handler α}
    {Q : Db → (Id → Cents) → Except Failure α → Prop} {s : Db} {d : Id → Cents} {a : Id}
    {b c : Cents} {y : ℚ} {executes : Option (ScheduledItem × DateTime)}
    {interest : Option InterestMove} {collection : Option CollectionMove}
    (row : SavingsTransaction) (hkind : allowed .overwrote)
    (haccount : row.accountId = a) (hwritten : ofNumber y = b + c) (hrow : c = row.signed)
    (hbody : ∀ t r t', body.run t = (.ok r, t') → (t.find? .savingsAccount a).isSome ∧
      ((t.modify .savingsAccount a (SavingsAccount.setBalance y)).insert .savingsTransaction
        row).Agree books t')
    (hk : ∀ t r, (k r).Follows (booksProtocol allowed) Q t d) (hQ : ∀ t e, Q t d (.error e)) :
    (transaction { overwrites := [⟨a, b, c⟩], executes, interest, collection } body >>=
      k).Follows (booksProtocol allowed) Q s d := by
  refine follows_overwrite d [row] [] hkind (fun t r t' h => ?_) (fun a' => ?_) hk hQ
  · obtain ⟨hfound, hagree⟩ := hbody t r t' h
    rw [← Db.overwrite_one t a hwritten] at hagree
    refine ⟨fun o ho => ?_, hagree⟩
    cases List.mem_singleton.mp ho
    exact hfound
  · simp [intended, signedSum, haccount, hrow]

theorem run_setBalanceInTx_eq_ok {s s' : Db} {a : Id} {type : SavingsTxnType} {x y : ℚ}
    {recordedById : Option Id} {now : DateTime} {u : Unit}
    (h : (setBalanceInTx now a type x y recordedById).run s = (.ok u, s')) :
    (s.find? .savingsAccount a).isSome ∧
      s' = (s.modify .savingsAccount a (SavingsAccount.setBalance y)).insert .savingsTransaction
        ⟨a, type, ofNumber x, ofNumber y, recordedById, now⟩ := by
  obtain ⟨acct', s₁, h₁, h⟩ := run_bind_eq_ok h
  obtain ⟨acct, hacct, -, rfl⟩ := run_update_eq_ok h₁
  obtain ⟨id, s₂, h₂, h⟩ := run_bind_eq_ok h
  obtain ⟨-, rfl⟩ := run_create_eq_ok h₂
  obtain ⟨-, rfl⟩ := Prod.mk.inj h
  exact ⟨by rw [hacct]; rfl, rfl⟩

/-- The statement of `setBalanceInTx`. -/
theorem follows_setBalanceInTx {α : Type} {k : Unit → Handler α}
    {Q : Db → (Id → Cents) → Except Failure α → Prop} {s : Db} {d : Id → Cents} {a : Id}
    {type : SavingsTxnType} {x y : ℚ} {b c : Cents} {recordedById : Option Id}
    {now : DateTime}
    {executes : Option (ScheduledItem × DateTime)} {interest : Option InterestMove}
    {collection : Option CollectionMove} (hkind : allowed .overwrote) (hwritten : ofNumber y = b + c)
    (hrow : c = SavingsTransaction.signed ⟨a, type, ofNumber x, ofNumber y, recordedById, now⟩)
    (hk : ∀ t, (k ()).Follows (booksProtocol allowed) Q t d) (hQ : ∀ t e, Q t d (.error e)) :
    (transaction { overwrites := [⟨a, b, c⟩], executes, interest, collection }
      (setBalanceInTx now a type x y recordedById) >>= k).Follows (booksProtocol allowed) Q s d := by
  refine follows_overwrite_one _ hkind rfl hwritten hrow (fun t u t' h => ?_) (fun t _ => hk t) hQ
  obtain ⟨hfound, rfl⟩ := run_setBalanceInTx_eq_ok h
  exact ⟨hfound, Db.Agree.refl _⟩

/-- A row that is recorded after its movement pays the debt. -/
theorem follows_recordRow {α : Type} {k : Id → Handler α}
    {Q : Db → (Id → Cents) → Except Failure α → Prop} {s : Db} {d : Id → Cents} (d' : Id → Cents)
    {row : SavingsTransaction} (hkind : allowed .overwrote) (hd : ∀ a, d' a = d a + signedSum [row] a)
    (hk : ∀ t id, (k id).Follows (booksProtocol allowed) Q t d') :
    (create .savingsTransaction row >>= k).Follows (booksProtocol allowed) Q s d := by
  intro t _
  have hstep : BooksStep allowed {} t d (t.insert .savingsTransaction row) d' :=
    @BooksStep.overwrote _ _ _ _ _ _ [] [row] [] _ _ _ hkind rfl nofun (Db.Agree.refl _) fun a => by
      rw [hd a]
      exact add_zero _
  exact ⟨d', Db.Evolves.insert (m := .savingsTransaction) (by decide) t row, hstep, hk _ _⟩

theorem SavingsFeeType.wholeCent_charge (feeType : SavingsFeeType) (balance : Cents) :
    WholeCent (feeType.charge balance) := by
  unfold SavingsFeeType.charge
  cases feeType.calculationMethod with
  | fixed => exact wholeCent_toNumber _
  | percentage => exact wholeCent_round2 _

theorem chargeFee_keepsBooks (auth : Auth) (now : DateTime) (a feeTypeId : Id)
    (hkind : allowed .overwrote) :
    KeepsBooks allowed (chargeFee auth now a feeTypeId) := by
  intro s
  have hW := booksProtocol_watches allowed
  refine hW.query fun s₁ h₁ => ?_
  refine Follows.orFail (fun acct _ => ?_) fun _ => rfl
  refine hW.query fun s₂ h₂ => ?_
  refine Follows.orFail (fun feeType _ => ?_) fun _ => rfl
  have hwhole := feeType.wholeCent_charge acct.balance
  -- Between the write and the row the process owes the row.
  refine follows_overwrite
    (fun a' => if a = a' then ofNumber (feeType.charge acct.balance) else 0) [] [] hkind ?_ ?_ ?_
    fun _ _ => rfl
  · intro t b t' h
    obtain ⟨acct', t₁, h₁, h⟩ := run_bind_eq_ok h
    obtain ⟨acct', hacct', -, rfl⟩ := run_update_eq_ok h₁
    obtain ⟨-, rfl⟩ := run_create_eq_ok h
    have hwritten : ofNumber (toNumber acct.balance - feeType.charge acct.balance) =
        acct.balance + -ofNumber (feeType.charge acct.balance) := by
      rw [hwhole.ofNumber_toNumber_sub, sub_eq_add_neg]
    rw [← Db.overwrite_one t a hwritten]
    refine ⟨fun o ho => ?_, Db.Agree.insert (by decide) _ _⟩
    cases List.mem_singleton.mp ho
    rw [hacct']
    rfl
  · intro a'
    by_cases h : a = a'
    · simp [intended, signedSum, h]
    · simp [intended, signedSum, h]
  · intro t charge
    refine follows_recordRow 0 hkind (fun a' => ?_) fun t' _ => ?_
    · by_cases h : a = a'
      · simp [signedSum, SavingsTransaction.signed, h]
      · simp [signedSum, h]
    · exact hW.quiet_end ((Quiet.create (by decide) _).bind fun _ => Quiet.pure _)
        fun _ _ _ => rfl

theorem waiveFee_keepsBooks (auth : Auth) (now : DateTime) (chargeId : Id)
    (reason : Option String) (hkind : allowed .overwrote) :
    KeepsBooks allowed (waiveFee auth now chargeId reason) := by
  intro s
  have hW := booksProtocol_watches allowed
  refine hW.query fun s₁ h₁ => ?_
  refine Follows.orFail (fun charge _ => ?_) fun _ => rfl
  refine Follows.require (fun _ => ?_) fun _ => rfl
  refine hW.query fun s₂ h₂ => ?_
  cases hacct : s₂.find? .savingsAccount charge.accountId with
  | none =>
    exact hW.quiet_end ((Quiet.update (by decide) _ _).bind fun _ =>
      (Quiet.create (by decide) _).bind fun _ => Quiet.pure _) fun _ _ _ => rfl
  | some acct =>
    refine follows_setBalanceInTx hkind ?_ ?_ (fun t => ?_) fun _ _ => rfl
    · rw [← toNumber_add, ofNumber_toNumber]
    · rw [SavingsTransaction.signed, ofNumber_toNumber]
    · exact hW.quiet_end ((Quiet.update (by decide) _ _).bind fun _ =>
        (Quiet.create (by decide) _).bind fun _ => Quiet.pure _) fun _ _ _ => rfl

theorem reverseCollection_keepsBooks (auth : Auth) (now : DateTime) (collectionId : Id)
    (reason : String) (hkind : allowed .overwrote) :
    KeepsBooks allowed (reverseCollection auth now collectionId reason) := by
  intro s
  have hW := booksProtocol_watches allowed
  refine Follows.require (fun _ => ?_) fun _ => rfl
  refine hW.query fun s₁ h₁ => ?_
  refine Follows.orFail (fun collection _ => ?_) fun _ => rfl
  refine Follows.require (fun _ => ?_) fun _ => rfl
  cases htype : collection.type with
  | loanRepayment =>
    exact hW.quiet_end ((Quiet.updateAs (by decide) _ _ _).bind fun _ =>
      (Quiet.create (by decide) _).bind fun _ => Quiet.pure _) fun _ _ _ => rfl
  | savingsDeposit =>
    refine hW.query fun s₂ h₂ => ?_
    cases s₂.find? .savingsAccount collection.targetId with
    | none =>
      exact hW.quiet_end ((Quiet.updateAs (by decide) _ _ _).bind fun _ =>
        (Quiet.create (by decide) _).bind fun _ => Quiet.pure _) fun _ _ _ => rfl
    | some acct =>
      refine follows_setBalanceInTx hkind ?_ ?_ (fun t => ?_) fun _ _ => rfl
      · rw [← toNumber_sub, ofNumber_toNumber, sub_eq_add_neg]
      · rw [SavingsTransaction.signed, ofNumber_toNumber]
      · exact hW.quiet_end ((Quiet.updateAs (by decide) _ _ _).bind fun _ =>
          (Quiet.create (by decide) _).bind fun _ => Quiet.pure _) fun _ _ _ => rfl

/-! ## Interest -/

theorem run_postInterestInTx_eq_ok {s s' : Db} {now : DateTime} {a institutionId : Id} {postedById : Option Id}
    {batchId : Option String} {first last : SavingsInterestAccrual} {ids : List Id} {x y : ℚ}
    {r : Id × SavingsInterestPosting}
    (h : (postInterestInTx now a institutionId postedById batchId first last ids x y).run s =
      (.ok r, s')) :
    (s.find? .savingsAccount a).isSome ∧
      ((s.modify .savingsAccount a (SavingsAccount.setBalance y)).insert .savingsTransaction
        ⟨a, .interest, ofNumber x, ofNumber y, postedById, now⟩).Agree books s' := by
  obtain ⟨t, s₁, h₁, h⟩ := run_bind_eq_ok h
  obtain ⟨-, rfl⟩ := run_create_eq_ok h₁
  obtain ⟨acct', s₂, h₂, h⟩ := run_bind_eq_ok h
  obtain ⟨acct, hacct, -, rfl⟩ := run_update_eq_ok h₂
  obtain ⟨p, s₃, h₃, h⟩ := run_bind_eq_ok h
  obtain ⟨-, rfl⟩ := run_create_eq_ok h₃
  obtain ⟨n, s₄, h₄, h⟩ := run_bind_eq_ok h
  rw [run_updateMany_eq_ok h₄] at h
  obtain ⟨-, rfl⟩ := Prod.mk.inj h
  rw [Db.find?_insert_of_ne (by decide)] at hacct
  refine ⟨by rw [hacct]; rfl, ?_⟩
  rw [Db.modify_insert_comm (by decide)]
  exact (Db.Agree.insert (by decide) _ _).trans (Db.Agree.modifyAll (by decide) _ _)

theorem postInterestForAccount_keepsBooks (now : DateTime) (a institutionId : Id) (postedById : Option Id)
    (batchId : Option String) (hkind : allowed .overwrote) :
    KeepsBooks allowed (postInterestForAccount now a institutionId postedById batchId) := by
  intro s
  have hW := booksProtocol_watches allowed
  refine hW.query fun s₁ h₁ => ?_
  cases hfirst : (s₁.unpostedAccruals a institutionId).head? with
  | none => exact rfl
  | some first =>
    cases hlast : (s₁.unpostedAccruals a institutionId).getLast? with
    | none => exact rfl
    | some last =>
      have htotal := wholeCent_round2
        ((s₁.unpostedAccruals a institutionId).map fun a => toNumber a.2.amountAccrued).sum
      dsimp only
      split
      · exact rfl
      · refine hW.findUniqueOrThrow (fun s₂ acct h₂ _ => ?_) fun _ => rfl
        refine follows_overwrite_one _ hkind rfl ?_ rfl
          (fun t r t' h => run_postInterestInTx_eq_ok h) (fun _ _ => rfl) fun _ _ => rfl
        have hsum := (wholeCent_toNumber acct.balance).add htotal
        rw [hsum.round2_eq, htotal.ofNumber_toNumber_add]

theorem postInterest_keepsBooks (auth : Auth) (now : DateTime) (a : Id)
    (hkind : allowed .overwrote) : KeepsBooks allowed (postInterest auth now a) := by
  intro s
  have hW := booksProtocol_watches allowed
  refine (postInterestForAccount_keepsBooks now a auth.institutionId (some auth.userId) none hkind s).bind
    (fun t d r hd => ?_) fun _ _ _ hd => hd
  subst hd
  refine Follows.orFail (fun result _ => ?_) fun _ => rfl
  exact hW.quiet_end ((Quiet.create (by decide) _).bind fun _ => Quiet.pure _) fun _ _ _ => rfl

theorem postAllForInstitution_keepsBooks (now : DateTime) (institutionId : Id) (postedById : Option Id)
    (batchId : Option String) (hkind : allowed .overwrote) :
    KeepsBooks allowed (postAllForInstitution now institutionId postedById batchId) := by
  intro s
  have hW := booksProtocol_watches allowed
  refine hW.query fun s₁ h₁ => ?_
  refine (Follows.mapEach fun a _ t => postInterestForAccount_keepsBooks now a _ _ _ hkind t).bind
    (fun t d r hd => ?_) fun _ _ _ hd => hd
  exact hd

theorem run_reverseInterestInTx_eq_ok {s s' : Db} {auth : Auth} {now : DateTime} {postingId : Id}
    {posting : SavingsInterestPosting} {reason : String} {y : ℚ} {u : Unit}
    (h : (reverseInterestInTx auth now postingId posting reason y).run s = (.ok u, s')) :
    (s.find? .savingsAccount posting.accountId).isSome ∧
      ((s.modify .savingsAccount posting.accountId (SavingsAccount.setBalance y)).insert
        .savingsTransaction ⟨posting.accountId, .interest, ofNumber (-toNumber posting.totalAmount),
          ofNumber y, some auth.userId, now⟩).Agree books s' := by
  obtain ⟨t, s₁, h₁, h⟩ := run_bind_eq_ok h
  obtain ⟨-, rfl⟩ := run_create_eq_ok h₁
  obtain ⟨acct', s₂, h₂, h⟩ := run_bind_eq_ok h
  obtain ⟨acct, hacct, -, rfl⟩ := run_update_eq_ok h₂
  obtain ⟨p, s₃, h₃, h⟩ := run_bind_eq_ok h
  obtain ⟨-, -, -, rfl⟩ := run_update_eq_ok h₃
  obtain ⟨n, s₄, h₄, h⟩ := run_bind_eq_ok h
  rw [run_updateMany_eq_ok h₄] at h
  obtain ⟨-, rfl⟩ := Prod.mk.inj h
  rw [Db.find?_insert_of_ne (by decide)] at hacct
  refine ⟨by rw [hacct]; rfl, ?_⟩
  rw [Db.modify_insert_comm (by decide)]
  exact (Db.Agree.modify (by decide) _ _ _).trans (Db.Agree.modifyAll (by decide) _ _)

theorem reverseInterest_keepsBooks (auth : Auth) (now : DateTime) (postingId : Id)
    (reason : String) (hkind : allowed .overwrote) :
    KeepsBooks allowed (reverseInterest auth now postingId reason) := by
  intro s
  have hW := booksProtocol_watches allowed
  refine Follows.require (fun _ => ?_) fun _ => rfl
  refine hW.query fun s₁ h₁ => ?_
  refine Follows.orFail (fun posting _ => ?_) fun _ => rfl
  refine Follows.require (fun _ => ?_) fun _ => rfl
  refine hW.findUniqueOrThrow (fun s₂ acct h₂ _ => ?_) fun _ => rfl
  refine follows_overwrite_one _ hkind rfl ?_ ?_
    (fun t u t' h => run_reverseInterestInTx_eq_ok h) (fun t _ => ?_) fun _ _ => rfl
  · rw [← toNumber_sub, round2_toNumber, ofNumber_toNumber, sub_eq_add_neg]
  · rw [SavingsTransaction.signed, ← toNumber_neg, ofNumber_toNumber]
  · exact hW.quiet_end ((Quiet.create (by decide) _).bind fun _ => Quiet.pure _) fun _ _ _ => rfl

/-! ## Standing instructions -/

theorem quiet_recordExecution (siId : Id) (si : StandingInstruction) :
    Quiet books (recordExecution siId si) :=
  (Quiet.createAs (by decide) _ _).bind fun _ => (Quiet.updateAs (by decide) _ _ _).bind fun _ =>
    Quiet.pure _

theorem quiet_failInsufficient (siId : Id) (si : StandingInstruction) (reason : String) :
    Quiet books (failInsufficient siId si reason) :=
  (Quiet.updateAs (by decide) _ _ _).bind fun _ => (Quiet.createAs (by decide) _ _).bind fun _ =>
    Quiet.pure _

theorem run_transferInTx_eq_ok {s s' : Db} {now : DateTime} {si : StandingInstruction} {sourceId destId : Id}
    {x y : ℚ} {u : Unit} (h : (transferInTx now si sourceId destId x y).run s = (.ok u, s')) :
    (∀ a ∈ [sourceId, destId], (s.find? .savingsAccount a).isSome) ∧
      s' = ((s.modify .savingsAccount sourceId (SavingsAccount.setBalance x)).modify
        .savingsAccount destId (SavingsAccount.setBalance y)).insertAll .savingsTransaction
          [⟨sourceId, .withdrawal, si.amount, ofNumber x, some si.createdById, now⟩,
            ⟨destId, .deposit, si.amount, ofNumber y, some si.createdById, now⟩] := by
  obtain ⟨acct', s₁, h₁, h⟩ := run_bind_eq_ok h
  obtain ⟨source, hsource, -, rfl⟩ := run_update_eq_ok h₁
  obtain ⟨acct', s₂, h₂, h⟩ := run_bind_eq_ok h
  obtain ⟨dest, hdest, -, rfl⟩ := run_update_eq_ok h₂
  obtain ⟨t, s₃, h₃, h⟩ := run_bind_eq_ok h
  obtain ⟨-, rfl⟩ := run_create_eq_ok h₃
  obtain ⟨t, s₄, h₄, h⟩ := run_bind_eq_ok h
  obtain ⟨-, rfl⟩ := run_create_eq_ok h₄
  obtain ⟨-, rfl⟩ := Prod.mk.inj h
  refine ⟨fun o ho => ?_, rfl⟩
  rcases List.mem_pair.mp ho with rfl | rfl
  · rw [hsource]
    rfl
  · rw [Db.find?_modify] at hdest
    split at hdest
    · cases hfound : s.find? .savingsAccount o with
      | some acct => rfl
      | none =>
        rw [hfound] at hdest
        exact absurd hdest nofun
    · rw [hdest]
      rfl

theorem executeFrom_keepsBooks (now : DateTime) (siId : Id) (si : StandingInstruction) (source : SavingsAccount)
    (hkind : allowed .overwrote) :
    KeepsBooks allowed (executeFrom now siId si source) := by
  intro s
  have hW := booksProtocol_watches allowed
  have htail : ∀ t, (recordExecution siId si).Follows (booksProtocol allowed) (fun _ d _ => d = 0) t 0 :=
    fun t => hW.quiet_end (quiet_recordExecution siId si) fun _ _ _ => rfl
  have hwithdrawn : ofNumber (toNumber source.balance - toNumber si.amount) =
      source.balance + -si.amount := by
    rw [← toNumber_sub, ofNumber_toNumber, sub_eq_add_neg]
  unfold executeFrom
  dsimp only
  split
  · next destId _ _ =>
    refine hW.query fun s₁ h₁ => ?_
    cases s₁.find? .savingsAccount destId with
    | none =>
      exact hW.quiet_end ((Quiet.createAs (by decide) _ _).bind fun _ => Quiet.pure _)
        fun _ _ _ => rfl
    | some dest =>
      have hdeposited : ofNumber (toNumber dest.balance + toNumber si.amount) =
          dest.balance + si.amount := by
        rw [← toNumber_add, ofNumber_toNumber]
      refine follows_overwrite 0
        [⟨si.sourceAccountId, .withdrawal, si.amount,
            ofNumber (toNumber source.balance - toNumber si.amount), some si.createdById, now⟩,
          ⟨destId, .deposit, si.amount, ofNumber (toNumber dest.balance + toNumber si.amount),
            some si.createdById, now⟩] [] hkind (fun t u t' h => ?_) (fun a => ?_)
        (fun t _ => htail t) fun _ _ => rfl
      · obtain ⟨hfound, rfl⟩ := run_transferInTx_eq_ok h
        rw [← Db.overwrite_one _ _ hwithdrawn, ← Db.overwrite_one _ _ hdeposited]
        refine ⟨fun o ho => hfound _ ?_, Db.Agree.refl _⟩
        rcases List.mem_pair.mp ho with rfl | rfl
        · exact List.mem_cons_self ..
        · exact List.mem_cons_of_mem _ (List.mem_cons_self ..)
      · simp [intended, signedSum, SavingsTransaction.signed]
  · next loanId _ _ =>
    refine follows_overwrite 0
      [⟨si.sourceAccountId, .withdrawal, ofNumber (toNumber si.amount),
        ofNumber (toNumber source.balance - toNumber si.amount), some si.createdById, now⟩]
      [⟨loanId, si.amount, some si.createdById, none⟩] hkind (fun t u t' h => ?_) (fun a => ?_)
      (fun t _ => htail t) fun _ _ => rfl
    · obtain ⟨_, t₁, h₁, h⟩ := run_bind_eq_ok h
      obtain ⟨hfound, rfl⟩ := run_setBalanceInTx_eq_ok h₁
      obtain ⟨_, t₂, h₂, h⟩ := run_bind_eq_ok h
      obtain ⟨-, rfl⟩ := run_create_eq_ok h₂
      obtain ⟨-, rfl⟩ := Prod.mk.inj h
      rw [← Db.overwrite_one _ _ hwithdrawn]
      refine ⟨fun o ho => ?_, Db.Agree.refl _⟩
      cases List.mem_singleton.mp ho
      exact hfound
    · simp [intended, signedSum, SavingsTransaction.signed]
  · refine follows_setBalanceInTx hkind hwithdrawn ?_ (fun t => htail t) fun _ _ => rfl
    rw [SavingsTransaction.signed, ofNumber_toNumber]
  · exact htail s

theorem runStandingInstructions_keepsBooks (now : DateTime)
    (hkind : allowed .overwrote) :
    KeepsBooks allowed (runStandingInstructions now) := by
  intro s
  have hW := booksProtocol_watches allowed
  refine hW.query fun s₁ h₁ => ?_
  refine (Follows.forEach (J := fun _ => True) (fun si _ t _ => ?_) trivial).imp fun _ _ _ h => h.1
  refine Follows.imp ?_ fun _ _ _ hd => ⟨hd, fun _ => trivial⟩
  refine hW.query fun s₂ h₂ => ?_
  cases s₂.find? .savingsAccount si.2.sourceAccountId with
  | none => exact hW.quiet_end (quiet_failInsufficient _ _ _) fun _ _ _ => rfl
  | some source =>
    dsimp only
    split
    · exact hW.quiet_end (quiet_failInsufficient _ _ _) fun _ _ _ => rfl
    · exact executeFrom_keepsBooks now si.1 si.2 source hkind s₂

/-! ## Repayments -/

theorem writes_updateLoanStatus {ms : List Model} (hl : Model.loan ∈ ms) (loanId : Id)
    (loan : Loan) : Writes ms (updateLoanStatus loanId loan) := by
  refine (Writes.query _).bind fun installments => Writes.ite ?_ (Writes.ite ?_ (.pure _))
  · exact (Writes.update hl _ _).bind fun _ => Writes.pure _
  · exact (Writes.update hl _ _).bind fun _ => Writes.pure _

/-- The shared code of all repayments writes the tables of the loans. -/
theorem writes_applyLoanRepaymentInTx {ms : List Model}
    (hw : ∀ m ∈ [Model.loan, .loanRepayment, .loanInstallment], m ∈ ms) (loanId : Id) (x : ℚ)
    (recordedById : Id) : Writes ms (applyLoanRepaymentInTx loanId x recordedById) := by
  refine (Writes.query _).bind fun _ => (Writes.orFail _ _).bind fun found => ?_
  refine (Writes.create (hw _ (by decide)) _).bind fun repayment => ?_
  refine (Writes.forEach fun _ _ => ?_).bind fun _ => ?_
  · exact (Writes.update (hw _ (by decide)) _ _).bind fun _ => Writes.pure _
  · exact (writes_updateLoanStatus (hw _ (by decide)) _ _).bind fun _ => Writes.pure _

theorem quiet_applyLoanRepaymentInTx {watched : List Model}
    (hw : ∀ m ∈ [Model.loan, .loanRepayment, .loanInstallment], m ∉ watched) (loanId : Id) (x : ℚ)
    (recordedById : Id) : Quiet watched (applyLoanRepaymentInTx loanId x recordedById) :=
  (writes_applyLoanRepaymentInTx (fun _ hm => hm) loanId x recordedById).quiet hw

/-- What the shared code of all repayments does to the books. -/
theorem run_applyLoanRepaymentInTx_eq_ok {s s' : Db} {loanId recordedById : Id} {x : ℚ}
    {r : Id × Bool} (h : (applyLoanRepaymentInTx loanId x recordedById).run s = (.ok r, s')) :
    (s.repay loanId x recordedById).Agree books s' := by
  obtain ⟨found, s₁, h₁, h⟩ := run_bind_eq_ok h
  obtain ⟨hfound, rfl⟩ := Prod.mk.inj h₁
  obtain ⟨⟨loan, installments⟩, s₂, h₂, h⟩ := run_bind_eq_ok h
  obtain ⟨hloan, rfl⟩ := run_orFail_eq_ok h₂
  rw [← Except.ok.inj hfound] at hloan
  obtain ⟨loan', -, hpair⟩ := Option.map_eq_some_iff.mp hloan
  obtain ⟨rfl, rfl⟩ := Prod.mk.inj hpair
  obtain ⟨repayment, s₃, h₃, h⟩ := run_bind_eq_ok h
  obtain ⟨-, rfl⟩ := run_create_eq_ok h₃
  obtain ⟨_, s₄, h₄, h⟩ := run_bind_eq_ok h
  have hs₄ := run_forEach_update_eq_ok h₄
  obtain ⟨loanClosed, s₅, h₅, h⟩ := run_bind_eq_ok h
  obtain ⟨-, rfl⟩ := Prod.mk.inj h
  have hwrites : Writes [.loan] (updateLoanStatus loanId loan') :=
    writes_updateLoanStatus (List.mem_singleton_self _) loanId loan'
  have hquiet : Quiet books (updateLoanStatus loanId loan') := hwrites.quiet (by decide)
  have hagree := hquiet.run s₄
  rw [h₅, hs₄] at hagree
  exact hagree

theorem run_repayInTx_eq_ok {s s' : Db} {auth : Auth} {now : DateTime} {loanId : Id} {x : ℚ}
    {description : String} {lines : List JournalLineInput} {r : Id × Bool}
    (h : (repayInTx auth now loanId x description lines).run s = (.ok r, s')) :
    ((s.repay loanId x auth.userId).applyEffects lines).Agree books s' := by
  obtain ⟨result, s₁, h₁, h⟩ := run_bind_eq_ok h
  have hrepay := run_applyLoanRepaymentInTx_eq_ok h₁
  obtain ⟨journal, s₂, h₂, h⟩ := run_bind_eq_ok h
  obtain ⟨-, -, rfl⟩ := run_postJournal_eq_ok h₂
  obtain ⟨-, rfl⟩ := Prod.mk.inj h
  exact (hrepay.trans (Db.Agree.insert (by decide) _ _)).applyEffects_congr lines

/-- The statement with which a repayment commits. -/
theorem follows_repayInTx {α : Type} {k : Id × Bool → Handler α}
    {Q : Db → (Id → Cents) → Except Failure α → Prop} {s : Db} {d : Id → Cents} {auth : Auth}
    {now : DateTime} {loanId institutionId : Id} {x : ℚ} {description : String}
    {money receivable : Id × GLAccount} {posting : Option Posting}
    (hkind : allowed (.repaid x)) (hx : 0 < x) (hpair : LoanPair s institutionId money receivable)
    (hk : ∀ t r, (k r).Follows (booksProtocol allowed) Q t d) (hQ : ∀ t e, Q t d (.error e)) :
    (transaction { loanMove := some (loanId, .repay x), posting }
      (repayInTx auth now loanId x description (doubleEntry money receivable x)) >>= k).Follows (booksProtocol allowed) Q s d := by
  refine Follows.transaction ?_ fun t e _ => ⟨.quiet (Db.Agree.refl t), hQ t e⟩
  intro t r t' ht hrun
  have hagree := run_repayInTx_eq_ok hrun
  refine ⟨d, ?_, .repaid hkind rfl hx (hpair.of_evolves ht) hagree, hk t' r⟩
  exact (Db.Evolves.repay t loanId x _).trans
    ((Db.Evolves.applyEffects _ _).trans (Db.Evolves.of_agree hagree))

theorem recordRepayment_keepsBooks (auth : Auth) (now : DateTime) (loanId : Id) (x : ℚ)
    (hkind : allowed (.repaid x)) :
    KeepsBooks allowed (recordRepayment auth now loanId x) := by
  intro s
  have hW := booksProtocol_watches allowed
  refine Follows.require (fun hx => ?_) fun _ => rfl
  refine hW.query fun s₁ h₁ => ?_
  refine Follows.orFail (fun loan _ => ?_) fun _ => rfl
  refine hW.query fun s₂ h₂ => ?_
  refine Follows.orFail (fun r hr => ?_) fun _ => rfl
  obtain ⟨hreceivable, hcash⟩ := both_eq_some hr
  refine hW.quiet (Quiet.requirePostablePeriod _ _) (fun s₃ _ h₃ => ?_) fun _ _ => rfl
  refine follows_journalAccounts (fun s₄ receivable cash h₄ hreceivableA hcashA => ?_)
    fun _ _ => rfl
  refine Follows.require (fun _ => ?_) fun _ => rfl
  have h₂₄ : s₂.Evolves s₄ := h₃.trans h₄
  have hpair : LoanPair s₄ auth.institutionId (r.2, cash) (r.1, receivable) :=
    ⟨.inl ((h₂₄.loanGLAccount? _ _).trans hcash),
      (h₂₄.loanGLAccount? _ _).trans hreceivable, hcashA, hreceivableA⟩
  refine follows_repayInTx hkind hx hpair (fun t r => ?_) fun _ _ => rfl
  exact hW.quiet_end ((Quiet.create (by decide) _).bind fun _ => Quiet.pure _) fun _ _ _ => rfl

/-! ## Collections -/

theorem collectSavingsDeposit_keepsBooks (auth : Auth) (now : DateTime) (body : RecordCollection)
    (hkind : allowed (.deposited body.amount)) (hx : 0 < body.amount) : KeepsBooks allowed (collectSavingsDeposit auth now body) := by
  intro s
  have hW := booksProtocol_watches allowed
  refine hW.query fun s₁ h₁ => ?_
  refine Follows.orFail (fun acct hacct => ?_) fun _ => rfl
  have howner : s₁.owner? body.targetId = some auth.institutionId :=
    owner_of_filter hacct (by simp +contextual)
  refine hW.query fun s₂ h₂ => ?_
  refine Follows.orFail (fun r hr => ?_) fun _ => rfl
  obtain ⟨hcustody, hliability⟩ := both_eq_some hr
  refine follows_journalAccounts (fun s₃ custody liability h₃ hcustodyA hliabilityA => ?_)
    fun _ _ => rfl
  refine Follows.require (fun _ => ?_) fun _ => rfl
  have h₁₃ : s₁.Evolves s₃ := h₂.trans h₃
  have hpair : SavingsPair s₃ auth.institutionId (r.1, custody) (r.2, liability) :=
    ⟨.inr ((h₃.savingsGLAccount? _ _).trans hcustody),
      (h₃.savingsGLAccount? _ _).trans hliability, hcustodyA, hliabilityA⟩
  exact follows_depositInTx hkind hx ((h₁₃.owners _).trans howner) hpair (fun _ _ => rfl) fun _ _ => rfl

theorem collectLoanRepayment_keepsBooks (auth : Auth) (now : DateTime) (body : RecordCollection)
    (hkind : allowed (.repaid body.amount)) (hx : 0 < body.amount) : KeepsBooks allowed (collectLoanRepayment auth now body) := by
  intro s
  have hW := booksProtocol_watches allowed
  refine hW.query fun s₁ h₁ => ?_
  refine Follows.orFail (fun loan _ => ?_) fun _ => rfl
  refine hW.query fun s₂ h₂ => ?_
  refine Follows.orFail (fun r hr => ?_) fun _ => rfl
  obtain ⟨hcustody, hreceivable⟩ := both_eq_some hr
  refine follows_journalAccounts (fun s₃ custody receivable h₃ hcustodyA hreceivableA => ?_)
    fun _ _ => rfl
  refine Follows.require (fun _ => ?_) fun _ => rfl
  have hpair : LoanPair s₃ auth.institutionId (r.1, custody) (r.2, receivable) :=
    ⟨.inr ((h₃.loanGLAccount? _ _).trans hcustody),
      (h₃.loanGLAccount? _ _).trans hreceivable, hcustodyA, hreceivableA⟩
  exact follows_repayInTx hkind hx hpair (fun _ _ => rfl) fun _ _ => rfl

theorem recordCollection_keepsBooks (auth : Auth) (now : DateTime) (body : RecordCollection)
    (hdeposit : body.type = .savingsDeposit → allowed (.deposited body.amount))
    (hrepay : body.type = .loanRepayment → allowed (.repaid body.amount)) :
    KeepsBooks allowed (recordCollection auth now body) := by
  intro s
  have hW := booksProtocol_watches allowed
  refine Follows.require (fun hx => ?_) fun _ => rfl
  refine hW.query fun s₁ h₁ => ?_
  refine Follows.orFail (fun collector _ => ?_) fun _ => rfl
  refine Follows.require (fun _ => ?_) fun _ => rfl
  refine hW.quiet ((Quiet.query _).bind fun _ => Quiet.pure _) (fun s₂ _ h₂ => ?_) fun _ _ => rfl
  refine Follows.require (fun _ => ?_) fun _ => rfl
  refine hW.quiet (Quiet.requirePostablePeriod _ _) (fun s₃ _ h₃ => ?_) fun _ _ => rfl
  cases htype : body.type with
  | savingsDeposit =>
    refine (collectSavingsDeposit_keepsBooks auth now body (hdeposit htype) hx s₃).bind (fun t d _ hd => ?_)
      fun _ _ _ hd => hd
    subst hd
    exact hW.quiet_end ((Quiet.create (by decide) _).bind fun _ =>
      (Quiet.create (by decide) _).bind fun _ => Quiet.pure _) fun _ _ _ => rfl
  | loanRepayment =>
    refine (collectLoanRepayment_keepsBooks auth now body (hrepay htype) hx s₃).bind (fun t d _ hd => ?_)
      fun _ _ _ hd => hd
    subst hd
    exact hW.quiet_end ((Quiet.create (by decide) _).bind fun _ =>
      (Quiet.create (by decide) _).bind fun _ => Quiet.pure _) fun _ _ _ => rfl

end NexusEfos
