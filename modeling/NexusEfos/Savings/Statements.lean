/-
Statements of savings accounts: `routes/savings.routes.ts`.

A statement takes the balances at its ends from the rows next to them, and its movement from the
rows between.  The two agree as long as every row takes the balance on from the row before it.
Whatever runs alone keeps that: deposits and withdrawals by relative updates, all others because
they write the balance that they have just read (`Db.Continues`).  So consecutive statements join,
and the balance moves in each by the sum of its rows (`statements_continuous`).
-/
import NexusEfos.Library.RunningBalance
import NexusEfos.Savings.Accruals
import NexusEfos.Savings.Import
import NexusEfos.Savings.Movements
import NexusEfos.Savings.Restrictions
import NexusEfos.Savings.Solvency

namespace NexusEfos

open Proc RunningBalance

/-! ## The endpoint -/

/-- `statementSchema`, with its dates read. -/
structure StatementPeriod where
  periodStart : DateTime
  periodEnd : DateTime

def SavingsTransaction.statementLine (t : SavingsTransaction) : StatementLine :=
  { date := t.createdAt, type := t.type, amount := toNumber t.amount,
    balanceAfter := toNumber t.balanceAfter }

/-- The sum of the transactions of a type. -/
def totalOf (type : SavingsTxnType) (txns : List SavingsTransaction) : ℚ :=
  ((txns.filter fun t => t.type = type).map fun t => toNumber t.amount).sum

/-- `POST /:id/statements/generate`. -/
def generateStatement (auth : Auth) (accountId : Id) (body : StatementPeriod) :
    Handler SavingsStatement := do
  let found ← findById .savingsAccount accountId fun a => a.institutionId = auth.institutionId
  let _ ← Proc.orFail found (.http 404 "Account not found")
  let periodStart := body.periodStart
  let periodEnd := endOfDay body.periodEnd
  let priorTxn ← query fun s => latestTransaction ((s.table .savingsTransaction).values.filter
    fun t => t.accountId = accountId ∧ t.createdAt < periodStart)
  let openingBalance := (priorTxn.map fun t => toNumber t.balanceAfter).getD 0
  let periodTxns ← query fun s => ((s.table .savingsTransaction).values.filter fun t =>
    t.accountId = accountId ∧ periodStart ≤ t.createdAt ∧ t.createdAt ≤ periodEnd).insertionSort
      fun a b => a.createdAt ≤ b.createdAt
  let closingBalance := (periodTxns.getLast?.map fun t => toNumber t.balanceAfter).getD openingBalance
  let statement : SavingsStatement :=
    { institutionId := auth.institutionId, accountId, periodStart, periodEnd,
      openingBalance := ofNumber openingBalance, closingBalance := ofNumber closingBalance,
      totalInterest := ofNumber (totalOf .interest periodTxns),
      totalFees := ofNumber (totalOf .fee periodTxns),
      transactionSnapshot := periodTxns.map SavingsTransaction.statementLine,
      generatedById := auth.userId }
  let _ ← create .savingsStatement statement
  let _ ← create .auditLog
    { institutionId := auth.institutionId, userId := some auth.userId,
      action := "savings.statement_generated", resource := "savings_account",
      resourceId := some accountId }
  return statement

/-- A line with the sign it has on the balance. -/
def StatementLine.signed (l : StatementLine) : ℚ :=
  match l.type with
  | .deposit | .interest | .migrationOpeningBalance | .feeReversal => l.amount
  | .withdrawal | .fee => -l.amount

theorem SavingsTransaction.signed_statementLine (t : SavingsTransaction) :
    t.statementLine.signed = toNumber t.signed := by
  unfold SavingsTransaction.statementLine StatementLine.signed SavingsTransaction.signed
  cases t.type <;> first | rfl | exact (toNumber_neg _).symm

/-! ## Rows that take the balance on -/

/-- The rows of an account, in the order in which they were stored. -/
def Db.rowsOn (s : Db) (a : Id) : List SavingsTransaction := s.rows.filter fun r => r.accountId = a

/-- What is recorded from one state to another takes the balance of every account on, and is
recorded at one moment. -/
def Db.Continues (now : DateTime) (s t : Db) : Prop :=
  ∀ a, ∃ new, t.rowsOn a = s.rowsOn a ++ new ∧ (∀ r ∈ new, r.createdAt = now) ∧
    Carries SavingsTransaction.signed SavingsTransaction.balanceAfter (s.balanceOf a) new
      (t.balanceOf a)

namespace Db.Continues

variable {now : DateTime} {s t u : Db}

/-- Nothing is moved and nothing is recorded. -/
theorem of_eq (hbalance : s.BalancesStand t) (hrows : t.rows = s.rows) : s.Continues now t := by
  intro a
  refine ⟨[], ?_, nofun, hbalance a⟩
  rw [Db.rowsOn, hrows, List.append_nil]
  rfl

theorem refl (s : Db) : s.Continues now s := .of_eq (fun _ => rfl) rfl

theorem of_agree (h : s.Agree [.savingsAccount, .savingsTransaction] t) : s.Continues now t :=
  .of_eq (balanceOf_congr (h _ (by decide))) (rows_congr (h _ (by decide)))

theorem trans (h : s.Continues now t) (h' : t.Continues now u) : s.Continues now u := by
  intro a
  obtain ⟨new, hrows, hnow, hcarries⟩ := h a
  obtain ⟨new', hrows', hnow', hcarries'⟩ := h' a
  refine ⟨new ++ new', ?_, ?_, hcarries.append hcarries'⟩
  · rw [hrows', hrows, List.append_assoc]
  · intro r hr
    rcases List.mem_append.mp hr with hr | hr
    · exact hnow r hr
    · exact hnow' r hr

/-- A row is recorded with the balance that its account then has. -/
theorem record (row : SavingsTransaction) (hnow : row.createdAt = now)
    (hcarry : row.balanceAfter = s.balanceOf row.accountId + row.signed)
    (hrows : t.rows = s.rows ++ [row])
    (hbalance : ∀ a, t.balanceOf a =
      if a = row.accountId then row.balanceAfter else s.balanceOf a) : s.Continues now t := by
  intro a
  by_cases ha : a = row.accountId
  · subst ha
    refine ⟨[row], ?_, List.forall_mem_singleton.mpr hnow, hcarry, ?_⟩
    · simp [Db.rowsOn, hrows]
    · rw [hbalance, if_pos rfl]
      exact rfl
  · refine ⟨[], ?_, nofun, ?_⟩
    · simp [Db.rowsOn, hrows, Ne.symm ha]
    · rw [hbalance, if_neg ha]
      exact rfl

end Db.Continues

/-! ## What the statements record -/

/-- A statement that overwrites the balances it has read records what it does. -/
def Access.Continues (now : DateTime) (lab : Access) (s t : Db) : Prop :=
  lab.Current s → s.Continues now t

section Steps

variable {α : Type} {now : DateTime} {a : Id} {x y : ℚ} {b c : Cents}

theorem Quiet.continues {p : Handler α} (hp : Quiet [.savingsAccount, .savingsTransaction] p) :
    p.EveryStep fun _ => Db.Continues now :=
  EveryStep.of_every (fun _ s t (h : s.Agree [.savingsAccount, .savingsTransaction] t) =>
    Db.Continues.of_agree h) hp

theorem Quiet.records {p : Handler α} (hp : Quiet [.savingsAccount, .savingsTransaction] p) :
    p.EveryStep (Access.Continues now) :=
  hp.continues.imp fun _ _ _ h _ => h

/-- A relative update with its row. -/
theorem Db.Continues.move {s t : Db} {acct : SavingsAccount} {lines : List JournalLineInput}
    {row : SavingsTransaction} (hacct : s.find? .savingsAccount a = some acct)
    (haccount : row.accountId = a) (hnow : row.createdAt = now)
    (hafter : row.balanceAfter = increment acct.balance x)
    (hsigned : increment acct.balance x = acct.balance + row.signed)
    (h : (s.move a x row lines).Agree books t) : s.Continues now t := by
  subst haccount
  apply Db.Continues.record row hnow
  · rw [hafter, hsigned, Db.balanceOf_of_find? hacct]
  · rw [Db.rows_congr (h _ (by decide)), Db.rows_move]
  · intro a
    rw [Db.balanceOf_agree h, Db.balanceOf_move hacct, hafter]

/-- An absolute write with its row. -/
theorem Db.Continues.overwrite {s t : Db} {row : SavingsTransaction}
    (hfound : (s.find? .savingsAccount row.accountId).isSome) (hnow : row.createdAt = now)
    (hcarry : row.balanceAfter = s.balanceOf row.accountId + row.signed)
    (hafter : row.balanceAfter = ofNumber y)
    (h : ((s.modify .savingsAccount row.accountId (SavingsAccount.setBalance y)).insert
      .savingsTransaction row).Agree [.savingsAccount, .savingsTransaction] t) :
    s.Continues now t := by
  obtain ⟨acct, hacct⟩ := Option.isSome_iff_exists.mp hfound
  apply Db.Continues.record row hnow hcarry
  · rw [Db.rows_congr (h _ (by decide)), Db.rows_insert,
      Db.rows_congr (Db.table_modify_of_ne (by decide) _ _ _)]
  · intro a
    rw [Db.balanceOf_congr (h _ (by decide)), Db.balanceOf_insert (by decide), Db.balanceOf_modify hacct, hafter]
    rfl

/-- The relative updates record what they do whatever was read before. -/
theorem depositInTx_continues {lab : Access} (hx : WholeCent x) (auth : Auth) (description : String)
    (lines : List JournalLineInput) :
    (transaction lab (depositInTx auth now a x description lines)).EveryStep
      fun _ => Db.Continues now := by
  apply EveryStep.transaction
  · exact Db.Continues.refl
  · intro s r t hrun
    obtain ⟨acct, hacct, hagree⟩ := run_depositInTx_eq_ok hrun
    apply Db.Continues.move hacct rfl rfl rfl ?_ hagree
    exact hx.ofNumber_toNumber_add acct.balance

theorem withdrawInTx_continues {lab : Access} (hx : WholeCent x) (auth : Auth)
    (description : String) (lines : List JournalLineInput) :
    (transaction lab (withdrawInTx auth now a x description lines)).EveryStep
      fun _ => Db.Continues now := by
  apply EveryStep.transaction
  · exact Db.Continues.refl
  · intro s r t hrun
    obtain ⟨acct, hacct, -, hagree⟩ := run_withdrawInTx_eq_ok hrun
    apply Db.Continues.move hacct rfl rfl rfl ?_ hagree
    show ofNumber (toNumber acct.balance + -x) = acct.balance + -ofNumber x
    rw [← ofNumber_neg]
    exact hx.neg.ofNumber_toNumber_add acct.balance

/-- A transaction that overwrites one balance and records it. -/
theorem overwrite_records {lab : Access} {body : Handler α} (row : SavingsTransaction)
    (hlab : lab.overwrites = [⟨a, b, c⟩]) (haccount : row.accountId = a)
    (hnow : row.createdAt = now) (hafter : row.balanceAfter = ofNumber y)
    (hwritten : ofNumber y = b + c) (hsigned : c = row.signed)
    (hbody : ∀ s r t, body.run s = (.ok r, t) → (s.find? .savingsAccount a).isSome ∧
      ((s.modify .savingsAccount a (SavingsAccount.setBalance y)).insert .savingsTransaction
        row).Agree [.savingsAccount, .savingsTransaction] t) :
    (transaction lab body).EveryStep (Access.Continues now) := by
  subst haccount
  apply EveryStep.transaction
  · exact fun s _ => .refl s
  · intro s r t hrun hcurrent
    obtain ⟨hfound, hagree⟩ := hbody s r t hrun
    have hread : s.balanceOf row.accountId = b := by
      apply hcurrent ⟨row.accountId, b, c⟩
      rw [hlab]
      exact List.mem_singleton_self _
    apply Db.Continues.overwrite hfound hnow ?_ hafter hagree
    rw [hread, hafter, hwritten, hsigned]

theorem setBalanceInTx_records {lab : Access} {type : SavingsTxnType} {recordedById : Option Id}
    (hlab : lab.overwrites = [⟨a, b, c⟩]) (hwritten : ofNumber y = b + c)
    (hsigned : c = SavingsTransaction.signed ⟨a, type, ofNumber x, ofNumber y, recordedById, now⟩) :
    (transaction lab (setBalanceInTx now a type x y recordedById)).EveryStep
      (Access.Continues now) := by
  apply overwrite_records _ hlab rfl rfl rfl hwritten hsigned
  intro s r t hrun
  obtain ⟨hfound, rfl⟩ := run_setBalanceInTx_eq_ok hrun
  exact ⟨hfound, .refl _⟩

end Steps

/-! ## The operations -/

section Operations

variable {now : DateTime}

theorem waiveFee_records (auth : Auth) (chargeId : Id) (reason : Option String) :
    (waiveFee auth now chargeId reason).EveryStep (Access.Continues now) := by
  refine (Quiet.query _).records.bind fun found => (EveryStep.orFail _ _).bind fun charge => ?_
  refine (EveryStep.require _ _).bind fun _ => (Quiet.query _).records.bind fun account => ?_
  cases account with
  | none =>
    exact ((Quiet.update (by decide) _ _).bind fun _ =>
      (Quiet.create (by decide) _).bind fun _ => Quiet.pure _).records
  | some acct =>
    refine (setBalanceInTx_records rfl ?_ ?_).bind fun _ => ?_
    · rw [← toNumber_add, ofNumber_toNumber]
    · rw [SavingsTransaction.signed, ofNumber_toNumber]
    · exact ((Quiet.update (by decide) _ _).bind fun _ =>
        (Quiet.create (by decide) _).bind fun _ => Quiet.pure _).records

theorem reverseCollection_records (auth : Auth) (collectionId : Id) (reason : String) :
    (reverseCollection auth now collectionId reason).EveryStep (Access.Continues now) := by
  refine (EveryStep.require _ _).bind fun _ => (Quiet.query _).records.bind fun found => ?_
  refine (EveryStep.orFail _ _).bind fun collection => (EveryStep.require _ _).bind fun _ => ?_
  cases collection.type with
  | loanRepayment =>
    exact ((Quiet.updateAs (by decide) _ _ _).bind fun _ =>
      (Quiet.create (by decide) _).bind fun _ => Quiet.pure _).records
  | savingsDeposit =>
    refine (Quiet.query _).records.bind fun found => ?_
    cases found with
    | none =>
      exact ((Quiet.updateAs (by decide) _ _ _).bind fun _ =>
        (Quiet.create (by decide) _).bind fun _ => Quiet.pure _).records
    | some acct =>
      refine (setBalanceInTx_records rfl ?_ ?_).bind fun _ => ?_
      · rw [← toNumber_sub, ofNumber_toNumber, sub_eq_add_neg]
      · rw [SavingsTransaction.signed, ofNumber_toNumber]
      · exact ((Quiet.updateAs (by decide) _ _ _).bind fun _ =>
          (Quiet.create (by decide) _).bind fun _ => Quiet.pure _).records

theorem postInterestForAccount_records (a institutionId : Id) (postedById : Option Id)
    (batchId : Option String) :
    (postInterestForAccount now a institutionId postedById batchId).EveryStep
      (Access.Continues now) := by
  refine (Quiet.query _).records.bind fun unposted => ?_
  have htotal := wholeCent_round2 (unposted.map fun a => toNumber a.2.amountAccrued).sum
  split
  · dsimp only
    split
    · trivial
    · refine (Quiet.findUniqueOrThrow _ _).records.bind fun acct => ?_
      refine EveryStep.bind ?_ fun _ => trivial
      refine overwrite_records _ rfl rfl rfl rfl ?_ rfl fun _ _ _ h =>
        (run_postInterestInTx_eq_ok h).imp_right fun hagree => hagree.mono (by decide)
      have hsum := (wholeCent_toNumber acct.balance).add htotal
      rw [hsum.round2_eq, htotal.ofNumber_toNumber_add]
  · trivial

theorem reverseInterest_records (auth : Auth) (postingId : Id) (reason : String) :
    (reverseInterest auth now postingId reason).EveryStep (Access.Continues now) := by
  refine (EveryStep.require _ _).bind fun _ => (Quiet.query _).records.bind fun found => ?_
  refine (EveryStep.orFail _ _).bind fun posting => (EveryStep.require _ _).bind fun _ => ?_
  refine (Quiet.findUniqueOrThrow _ _).records.bind fun acct => ?_
  refine EveryStep.bind ?_ fun _ =>
    ((Quiet.create (by decide) _).bind fun _ => Quiet.pure _).records
  refine overwrite_records _ rfl rfl rfl rfl ?_ ?_ fun _ _ _ h =>
    (run_reverseInterestInTx_eq_ok h).imp_right fun hagree => hagree.mono (by decide)
  · rw [← toNumber_sub, round2_toNumber, ofNumber_toNumber, sub_eq_add_neg]
  · rw [SavingsTransaction.signed, ← toNumber_neg, ofNumber_toNumber]

/-- A transfer between two accounts records both movements. -/
theorem transfer_records {lab : Access} {si : StandingInstruction} {destId : Id}
    {source dest : SavingsAccount} (hne : destId ≠ si.sourceAccountId)
    (hlab : lab.overwrites =
      [⟨si.sourceAccountId, source.balance, -si.amount⟩, ⟨destId, dest.balance, si.amount⟩]) :
    (transaction lab (transferInTx now si si.sourceAccountId destId
      (toNumber source.balance - toNumber si.amount)
      (toNumber dest.balance + toNumber si.amount))).EveryStep (Access.Continues now) := by
  apply EveryStep.transaction
  · exact fun s _ => .refl s
  · intro s u t hrun hcurrent
    obtain ⟨hfound, rfl⟩ := run_transferInTx_eq_ok hrun
    have hsource : s.balanceOf si.sourceAccountId = source.balance := by
      apply hcurrent ⟨si.sourceAccountId, source.balance, -si.amount⟩
      rw [hlab]
      exact List.mem_cons_self ..
    have hdest : s.balanceOf destId = dest.balance := by
      apply hcurrent ⟨destId, dest.balance, si.amount⟩
      rw [hlab]
      exact List.mem_cons_of_mem _ (List.mem_singleton_self _)
    obtain ⟨acct, hacct⟩ := Option.isSome_iff_exists.mp (hfound destId (by simp))
    have hother : (s.modify .savingsAccount si.sourceAccountId (SavingsAccount.setBalance
        (toNumber source.balance - toNumber si.amount))).find? .savingsAccount destId =
          some acct := by
      rw [Db.find?_modify, if_neg hne, hacct]
    -- The withdrawal is recorded first, and the deposit does not see it.
    have hwithdrawn : s.Continues now ((s.modify .savingsAccount si.sourceAccountId
        (SavingsAccount.setBalance (toNumber source.balance - toNumber si.amount))).insert
          .savingsTransaction ⟨si.sourceAccountId, .withdrawal, si.amount,
            ofNumber (toNumber source.balance - toNumber si.amount), some si.createdById, now⟩) := by
      apply Db.Continues.overwrite (hfound si.sourceAccountId (by simp)) rfl ?_ rfl (.refl _)
      show ofNumber (toNumber source.balance - toNumber si.amount) = _ + -si.amount
      rw [hsource, ← toNumber_sub, ofNumber_toNumber, sub_eq_add_neg]
    apply hwithdrawn.trans
    apply Db.Continues.record ⟨destId, .deposit, si.amount,
      ofNumber (toNumber dest.balance + toNumber si.amount), some si.createdById, now⟩ rfl
    · show ofNumber (toNumber dest.balance + toNumber si.amount) = _ + si.amount
      rw [Db.balanceOf_insert (by decide), Db.balanceOf_of_find? hother]
      rw [Db.balanceOf_of_find? hacct] at hdest
      rw [hdest, ← toNumber_add, ofNumber_toNumber]
    · rw [Db.rows_insertAll, Db.rows_insert, List.append_assoc]
      rw [Db.rows_congr (Db.table_modify_of_ne (by decide) _ _ _)]
      rfl
    · intro a
      rw [Db.balanceOf_insertAll (by decide), Db.balanceOf_modify hother,
        Db.balanceOf_insert (by decide)]
      rfl

/-- A transfer goes to another account. -/
def StandingInstruction.Distinct (si : StandingInstruction) : Prop :=
  si.type = .internalTransfer → si.destinationAccountId ≠ some si.sourceAccountId

instance (si : StandingInstruction) : Decidable si.Distinct :=
  inferInstanceAs (Decidable (_ → _))

theorem executeFrom_records {si : StandingInstruction} (hdistinct : si.Distinct) (siId : Id)
    (source : SavingsAccount) :
    (executeFrom now siId si source).EveryStep (Access.Continues now) := by
  have htail : (recordExecution siId si).EveryStep (Access.Continues now) :=
    ((Quiet.createAs (by decide) _ _).bind fun _ =>
      (Quiet.updateAs (by decide) _ _ _).bind fun _ => Quiet.pure _).records
  have hwithdrawn : ofNumber (toNumber source.balance - toNumber si.amount) =
      source.balance + -si.amount := by
    rw [← toNumber_sub, ofNumber_toNumber, sub_eq_add_neg]
  unfold executeFrom
  dsimp only
  split
  · next destId htype hdest =>
    have hne : destId ≠ si.sourceAccountId := fun heq => hdistinct htype (heq ▸ hdest)
    refine (Quiet.query _).records.bind fun found => ?_
    cases found with
    | none => exact ((Quiet.createAs (by decide) _ _).bind fun _ => Quiet.pure _).records
    | some dest => exact (transfer_records hne rfl).bind fun _ => htail
  · next loanId _ _ =>
    refine EveryStep.bind ?_ fun _ => htail
    apply overwrite_records ⟨si.sourceAccountId, .withdrawal, ofNumber (toNumber si.amount),
      ofNumber (toNumber source.balance - toNumber si.amount), some si.createdById, now⟩ rfl rfl rfl
        rfl hwithdrawn
    · rw [SavingsTransaction.signed, ofNumber_toNumber]
    · intro s u t hrun
      obtain ⟨_, t₁, h₁, hrest⟩ := run_bind_eq_ok hrun
      obtain ⟨hfound, rfl⟩ := run_setBalanceInTx_eq_ok h₁
      obtain ⟨_, t₂, h₂, hend⟩ := run_bind_eq_ok hrest
      obtain ⟨-, rfl⟩ := run_create_eq_ok h₂
      obtain ⟨-, rfl⟩ := Prod.mk.inj hend
      exact ⟨hfound, Db.Agree.insert (by decide) _ _⟩
  · refine (setBalanceInTx_records rfl hwithdrawn ?_).bind fun _ => htail
    rw [SavingsTransaction.signed, ofNumber_toNumber]
  · exact htail

theorem runStandingInstructions_continues {s : Db}
    (hdistinct : ∀ si ∈ (s.table .standingInstruction).values, si.Distinct) :
    s.Continues now ((runStandingInstructions now).run s).2 := by
  have hloop : (Proc.forEach ((s.table .standingInstruction).entries.filter fun e =>
      e.2.status = .active ∧ e.2.nextExecutionDate ≤ now) fun si =>
        executeInstruction now si.1 si.2).EveryStep (Access.Continues now) := by
    apply EveryStep.forEach
    intro si hsi
    have hsi' : si.2.Distinct := hdistinct si.2 (List.mem_map_of_mem (List.mem_filter.mp hsi).1)
    refine (Quiet.query _).records.bind fun found => ?_
    have hfail : ∀ reason, (failInsufficient si.1 si.2 reason).EveryStep (Access.Continues now) :=
      fun reason => ((Quiet.updateAs (by decide) _ _ _).bind fun _ =>
        (Quiet.createAs (by decide) _ _).bind fun _ => Quiet.pure _).records
    cases found with
    | none => exact hfail _
    | some source =>
      dsimp only
      split
      · exact hfail _
      · exact executeFrom_records hsi' si.1 source
  exact hloop.run Db.Continues.refl (fun h h' => h.trans h') (fun _ _ _ h => h)
    (runStandingInstructions_current now s).2

end Operations

theorem run_discard_snd {α : Type} (p : Handler α) (s : Db) :
    ((discard p).run s).2 = (p.run s).2 := by
  unfold discard
  rw [run_bind]
  cases p.run s with
  | mk r t => cases r <;> rfl

/-- A fee is taken in one statement and recorded in the next one. -/
theorem chargeFee_continues (auth : Auth) (now : DateTime) (a feeTypeId : Id) (s : Db) :
    s.Continues now ((chargeFee auth now a feeTypeId).run s).2 := by
  have hends : (chargeFee auth now a feeTypeId).Ends (fun _ t => s.Continues now t) s := by
    apply ends_query
    apply Ends.orFail ?_ fun _ => .refl s
    intro acct hacct
    apply ends_query
    apply Ends.orFail ?_ fun _ => .refl s
    intro feeType _
    apply Ends.transaction ?_ fun _ => .refl s
    intro charge t hrun
    obtain ⟨acct', s₁, h₁, hrest⟩ := run_bind_eq_ok hrun
    obtain ⟨acct', hacct', -, rfl⟩ := run_update_eq_ok h₁
    obtain ⟨-, rfl⟩ := run_create_eq_ok hrest
    apply ends_create
    apply ends_create
    have hend : ∀ u, s.Continues now u →
        (pure charge : Handler Id).Ends (fun _ t => s.Continues now t) u := fun _ h => h
    apply hend
    have hfound := find?_of_filter hacct
    have hwhole := feeType.wholeCent_charge acct.balance
    apply Db.Continues.record ⟨a, .fee, ofNumber (feeType.charge acct.balance),
      ofNumber (toNumber acct.balance - feeType.charge acct.balance), some auth.userId, now⟩ rfl
    · show ofNumber (toNumber acct.balance - feeType.charge acct.balance) =
        s.balanceOf a + -ofNumber (feeType.charge acct.balance)
      rw [Db.balanceOf_of_find? hfound, hwhole.ofNumber_toNumber_sub, sub_eq_add_neg]
    · rw [Db.rows_congr (Db.table_insert_of_ne (by decide) _ _), Db.rows_insert,
        Db.rows_congr (Db.table_insert_of_ne (by decide) _ _),
        Db.rows_congr (Db.table_modify_of_ne (by decide) _ _ _)]
    · intro a'
      rw [Db.balanceOf_insert (by decide), Db.balanceOf_insert (by decide),
        Db.balanceOf_insert (by decide), Db.balanceOf_modify hfound]
      rfl
  exact hends

namespace SavingsOperation

def now : SavingsOperation → DateTime
  | deposit _ now .. | withdraw _ now .. | chargeFee _ now .. | waiveFee _ now ..
  | runStandingInstructions now | postInterest _ now .. | postAllInterest now ..
  | reverseInterest _ now .. | recordCollection _ now .. | reverseCollection _ now .. => now

/-- The amounts are whole cents, and the instructions that are executed transfer between distinct
accounts. -/
def Proper (s : Db) : SavingsOperation → Prop
  | deposit _ _ _ x | withdraw _ _ _ x => WholeCent x
  | recordCollection _ _ body => WholeCent body.amount
  | runStandingInstructions _ => ∀ si ∈ (s.table .standingInstruction).values, si.Distinct
  | _ => True

/-- An operation that runs alone records what it does. -/
theorem continues (op : SavingsOperation) {s : Db} (h : op.Proper s) :
    s.Continues op.now (op.handler.run s).2 := by
  have hrest : ∀ {α : Type} {p : Handler α}, Writes [.auditLog] p →
      p.EveryStep fun _ => Db.Continues op.now := fun hp => (hp.quiet (by decide)).continues
  have hrelative : ∀ {p : Handler Unit}, p.EveryStep (fun _ => Db.Continues op.now) →
      s.Continues op.now (p.run s).2 := fun hp =>
    hp.every.run Db.Continues.refl (fun h h' => h.trans h') s
  have habsolute : ∀ {p : Handler Unit}, p.EveryStep (Access.Continues op.now) →
      p.Meets Access.Current s → s.Continues op.now (p.run s).2 := fun hp hmeets =>
    hp.run Db.Continues.refl (fun h h' => h.trans h') (fun _ _ _ h => h) hmeets
  cases op with
  | deposit auth now a x =>
    apply hrelative
    exact (deposit_everyStep hrest auth now a x fun _ _ =>
      depositInTx_continues h auth _ _).bind fun _ => trivial
  | withdraw auth now a x =>
    apply hrelative
    exact (withdraw_everyStep hrest auth now a x fun _ _ =>
      withdrawInTx_continues h auth _ _).bind fun _ => trivial
  | chargeFee auth now a feeTypeId =>
    rw [handler, run_discard_snd]
    exact chargeFee_continues auth now a feeTypeId s
  | waiveFee auth now chargeId reason =>
    exact habsolute ((waiveFee_records auth chargeId reason).bind fun _ => trivial)
      (discard_current (waiveFee_current auth now chargeId reason s))
  | runStandingInstructions now => exact runStandingInstructions_continues h
  | postInterest auth now a =>
    apply habsolute ?_ (discard_current (postInterest_current auth now a s))
    refine EveryStep.bind ?_ fun _ => trivial
    refine (postInterestForAccount_records a auth.institutionId (some auth.userId) none).bind ?_
    intro found
    refine (EveryStep.orFail _ _).bind fun result => ?_
    exact ((Quiet.create (by decide) _).bind fun _ => Quiet.pure _).records
  | postAllInterest now institutionId postedById batchId =>
    apply habsolute ?_ (discard_current (postAllForInstitution_current now institutionId postedById
      batchId s))
    refine EveryStep.bind ?_ fun _ => trivial
    refine (Quiet.query _).records.bind fun accounts => ?_
    refine (EveryStep.mapEach fun a _ =>
      postInterestForAccount_records a institutionId postedById batchId).bind fun _ => trivial
  | reverseInterest auth now postingId reason =>
    exact habsolute (reverseInterest_records auth postingId reason)
      (reverseInterest_current auth now postingId reason s)
  | recordCollection auth now body =>
    apply hrelative
    refine EveryStep.bind ?_ fun _ => trivial
    apply recordCollection_moves hrest auth now body
    · exact fun _ _ _ => depositInTx_continues h auth _ _
    · intro _ description lines
      refine EveryStep.transaction (fun s => .refl s) fun s r t hrun => ?_
      have hagree := run_repayInTx_eq_ok hrun
      apply Db.Continues.of_eq
      · intro a
        rw [Db.balanceOf_agree hagree, Db.balanceOf_applyEffects, Db.balanceOf_repay]
      · rw [Db.rows_congr (hagree _ (by decide)), Db.rows_applyEffects, Db.rows_repay]
    · exact fun row => (Quiet.createAs (by decide) _ _).continues
  | reverseCollection auth now collectionId reason =>
    exact habsolute ((reverseCollection_records auth collectionId reason).bind fun _ => trivial)
      (discard_current (reverseCollection_current auth now collectionId reason s))

end SavingsOperation

/-! ## Imported and new accounts -/

/-- A new account starts with its own balance. -/
theorem Db.balanceOf_insert_account (s : Db) (acct : SavingsAccount) (a : Id) :
    (s.insert .savingsAccount acct).balanceOf a =
      if a = s.nextId .savingsAccount then acct.balance else s.balanceOf a := by
  rw [Db.balanceOf, Db.find?_insert]
  by_cases ha : a = s.nextId .savingsAccount
  · rw [if_pos ha, if_pos ha]
    rfl
  · rw [if_neg ha, if_neg ha]
    rfl

theorem Db.balanceOf_nextId (s : Db) : s.balanceOf (s.nextId .savingsAccount) = 0 := by
  have hnone : s.find? .savingsAccount (s.nextId .savingsAccount) = none :=
    OrderedMap.get?_nextKey _
  rw [Db.balanceOf, hnone]
  rfl

/-- A row without errors has a balance that is not negative. -/
theorem run_validateSavingsRows_eq_ok {currentVersion : Id → Option Id} {institutionId : Id}
    {seen : List String} {rows : List SavingsRow} {results : List (ImportResult ImportedAccount)}
    {s t : Db} (h : (validateSavingsRows currentVersion institutionId seen rows).run s =
      (.ok results, t)) :
    ∀ r ∈ results, r.errors = [] → nonNegative r.data.row.openingBalance := by
  induction rows generalizing seen results s with
  | nil =>
    obtain ⟨hresults, -⟩ := Prod.mk.inj h
    cases hresults
    exact nofun
  | cons row rows ih =>
    obtain ⟨result, s₁, hfirst, hrest⟩ := run_bind_eq_ok h
    obtain ⟨others, s₂, hothers, hend⟩ := run_bind_eq_ok hrest
    obtain ⟨hresults, rfl⟩ := Prod.mk.inj hend
    cases hresults
    intro r hr hnone
    rcases List.mem_cons.mp hr with rfl | hr
    · obtain ⟨⟨customerId, customerErrors⟩, t₁, h₁, hfirst⟩ := run_bind_eq_ok hfirst
      obtain ⟨⟨productVersionId, productErrors⟩, t₂, h₂, hfirst⟩ := run_bind_eq_ok hfirst
      obtain ⟨numberErrors, t₃, h₃, hfirst⟩ := run_bind_eq_ok hfirst
      obtain ⟨hresult, -⟩ := Prod.mk.inj hfirst
      cases hresult
      simp only [List.append_eq_nil_iff] at hnone
      have hbalance := hnone.1.1.1.1.2
      show nonNegative row.openingBalance
      by_contra hneg
      rw [errorUnless, if_neg hneg] at hbalance
      exact List.cons_ne_nil _ _ hbalance
    · exact ih hothers r hr hnone

theorem quiet_validateSavingsRows (currentVersion : Id → Option Id) (institutionId : Id)
    (watched : List Model) (seen : List String) (rows : List SavingsRow) :
    Quiet watched (validateSavingsRows currentVersion institutionId seen rows) := by
  induction rows generalizing seen with
  | nil => exact Quiet.pure _
  | cons row rows ih =>
    refine Quiet.bind ?_ fun _ => (ih _).bind fun _ => Quiet.pure _
    refine Quiet.bind (.ite ((Quiet.query _).bind fun _ => Quiet.pure _) (Quiet.pure _)) fun _ => ?_
    refine Quiet.bind (.ite ((Quiet.query _).bind fun _ => Quiet.pure _) (Quiet.pure _)) fun _ => ?_
    refine Quiet.bind (.ite ((Quiet.query _).bind fun _ => Quiet.pure _) (Quiet.pure _)) fun _ => ?_
    exact Quiet.pure _

theorem importAccount_continues (auth : Auth) (now : DateTime) (generated : ℕ → String)
    (batchId : Id) {a : ImportedAccount} (h : nonNegative a.row.openingBalance) (customerId : Id) :
    (importAccount auth now generated batchId a customerId).EveryStep
      fun _ => Db.Continues now := by
  refine EveryStep.transaction (fun s => .refl s) fun s u t hrun => ?_
  obtain ⟨account, s₁, h₁, hrest⟩ := run_bind_eq_ok hrun
  obtain ⟨rfl, rfl⟩ := run_create_eq_ok h₁
  by_cases hpos : 0 < round2 (a.row.openingBalance.getD 0)
  · rw [if_pos hpos] at hrest
    obtain ⟨id, s₂, h₂, hend⟩ := run_bind_eq_ok hrest
    obtain ⟨-, rfl⟩ := run_create_eq_ok h₂
    obtain ⟨-, rfl⟩ := Prod.mk.inj hend
    apply Db.Continues.record ⟨s.nextId .savingsAccount, .migrationOpeningBalance,
      ofNumber (round2 (a.row.openingBalance.getD 0)),
      ofNumber (round2 (a.row.openingBalance.getD 0)), some auth.userId, now⟩ rfl
    · show ofNumber (round2 (a.row.openingBalance.getD 0)) =
        s.balanceOf (s.nextId .savingsAccount) + ofNumber (round2 (a.row.openingBalance.getD 0))
      rw [Db.balanceOf_nextId, zero_add]
    · rw [Db.rows_insert, Db.rows_congr (Db.table_insert_of_ne (by decide) _ _)]
    · intro a'
      rw [Db.balanceOf_insert (by decide), Db.balanceOf_insert_account]
      rfl
  · rw [if_neg hpos] at hrest
    obtain ⟨-, rfl⟩ := Prod.mk.inj hrest
    have hzero : round2 (a.row.openingBalance.getD 0) = 0 := by
      apply le_antisymm (not_lt.mp hpos)
      apply round2_nonneg
      cases hbalance : a.row.openingBalance with
      | none => exact le_rfl
      | some x =>
        rw [nonNegative, hbalance] at h
        exact h
    apply Db.Continues.of_eq
    · apply Db.BalancesStand.insert
      show ofNumber (round2 (a.row.openingBalance.getD 0)) = 0
      rw [hzero, ofNumber_zero]
    · exact Db.rows_congr (Db.table_insert_of_ne (by decide) _ _)

/-- The import of a file records the opening balances. -/
theorem commitSavings_continues (currentVersion : Id → Option Id) (generated : ℕ → String)
    (auth : Auth) (now : DateTime) (rows : List SavingsRow) (s : Db) :
    s.Continues now ((commitSavings currentVersion generated auth now rows).run s).2 := by
  have hends : (commitSavings currentVersion generated auth now rows).Ends
      (fun _ t => s.Continues now t) s := by
    unfold commitSavings
    refine Ends.bind (show Ends (fun r t => s.Continues now t ∧ ∀ results, r = .ok results →
        ∀ x ∈ results, x.errors = [] → nonNegative x.data.row.openingBalance) _ s from ?_) ?_
      fun _ _ h => h.1
    · constructor
      · exact .of_agree ((quiet_validateSavingsRows _ _ _ _ _).run s)
      · intro results hresults
        exact run_validateSavingsRows_eq_ok (Prod.ext hresults rfl)
    · intro results t hvalidated
      apply Ends.require ?_ fun _ => hvalidated.1
      intro hvalid
      have hnonneg : ∀ x ∈ results, nonNegative x.data.row.openingBalance := fun x hx =>
        hvalidated.2 results rfl x hx (hvalid _ (List.mem_map_of_mem hx))
      refine hvalidated.1.trans (EveryStep.every ?_ |>.run Db.Continues.refl
        (fun h h' => h.trans h') t)
      refine (Quiet.create (by decide) _).continues.bind fun batchId => ?_
      refine EveryStep.bind ?_ fun outcome => ?_
      · refine (EveryStep.mapEach fun x hx => ?_).bind fun _ => trivial
        refine EveryStep.bind (EveryStep.outcome ?_) fun _ => trivial
        refine (EveryStep.orFail _ _).bind fun customerId => ?_
        exact importAccount_continues auth now generated batchId (hnonneg x hx) customerId
      · exact ((Quiet.update (by decide) _ _).bind fun _ =>
          (Quiet.create (by decide) _).bind fun _ => Quiet.pure _).continues
  exact hends

/-! ## Histories -/

/-- The account is as it was, and nothing is recorded. -/
def Db.MovesNothing (s t : Db) : Prop := s.BalancesStand t ∧ t.rows = s.rows

/-- The calls in the life of an account: the operations that move balances, the import, the opening,
and any other code, which moves no balance and records no transaction. -/
inductive AccountCall
  | move (op : SavingsOperation)
  | commitSavings (currentVersion : Id → Option Id) (generated : ℕ → String) (auth : Auth)
      (now : DateTime) (rows : List SavingsRow)
  | openAccount (js : Js OpeningContext) (auth : Auth) (now : DateTime) (accountNumber : String)
      (body : OpenAccount)
  | other (now : DateTime) (p : Handler Unit) (h : p.Every Db.MovesNothing)

namespace AccountCall

def handler : AccountCall → Handler Unit
  | move op => op.handler
  | commitSavings currentVersion generated auth now rows =>
    discard (NexusEfos.commitSavings currentVersion generated auth now rows)
  | openAccount js auth now accountNumber body =>
    discard (NexusEfos.openAccount js auth now accountNumber body)
  | other _ p _ => p

def now : AccountCall → DateTime
  | move op => op.now
  | commitSavings _ _ _ now _ | openAccount _ _ now _ _ | other now _ _ => now

def Proper : AccountCall → Db → Prop
  | move op, s => op.Proper s
  | _, _ => True

theorem openAccount_continues (js : Js OpeningContext) (auth : Auth) (now : DateTime)
    (accountNumber : String) (body : OpenAccount) (s : Db) :
    s.Continues now ((NexusEfos.openAccount js auth now accountNumber body).run s).2 := by
  have hbalance : s.BalancesStand
      ((NexusEfos.openAccount js auth now accountNumber body).run s).2 :=
    (openAccount_every (fun _ _ => Db.BalancesStand.of_agree)
      (fun s _ hzero => Db.BalancesStand.insert hzero s) js auth now accountNumber body).run
        (fun _ _ => rfl) (fun h h' a => (h' a).trans (h a)) s
  have hquiet : Quiet [.savingsTransaction]
      (NexusEfos.openAccount js auth now accountNumber body) := by
    refine (Quiet.query _).bind fun foundCustomer => ?_
    refine (Quiet.orFail _ _).bind fun customer => (Quiet.require _ _).bind fun _ => ?_
    refine (Quiet.query _).bind fun foundVersion => (Quiet.orFail _ _).bind fun version => ?_
    refine (Quiet.require _ _).bind fun _ => (Quiet.require _ _).bind fun _ => ?_
    refine (Quiet.matchRules _ _ _ _ _).bind fun matched => ?_
    refine (Quiet.requireUnblocked _ _).bind fun _ => ?_
    refine (Quiet.create (by decide) _).bind fun account => ?_
    refine (Quiet.create (by decide) _).bind fun _ => ?_
    exact (Quiet.executeMatchedRules (by decide) (by decide) _ _ _ _ _).bind fun _ => Quiet.pure _
  exact .of_eq hbalance (Db.rows_congr (hquiet.run s _ (by decide)))

theorem continues (call : AccountCall) {s : Db} (h : call.Proper s) :
    s.Continues call.now (call.handler.run s).2 := by
  cases call with
  | move op => exact op.continues h
  | commitSavings currentVersion generated auth now rows =>
    rw [handler, run_discard_snd]
    exact commitSavings_continues currentVersion generated auth now rows s
  | openAccount js auth now accountNumber body =>
    rw [handler, run_discard_snd]
    exact openAccount_continues js auth now accountNumber body s
  | other now p hp =>
    have hnothing : s.MovesNothing (p.run s).2 :=
      hp.run (fun _ => ⟨fun _ => rfl, rfl⟩)
        (fun h h' => ⟨fun a => (h'.1 a).trans (h.1 a), h'.2.trans h.2⟩) s
    exact .of_eq hnothing.1 hnothing.2

end AccountCall

/-- A history takes the balance of an account on, row by row in the order of time. -/
theorem runAll_carries {calls : List AccountCall} {s : Db}
    (htimes : (calls.map AccountCall.now).Pairwise (· ≤ ·))
    (hproper : AllAlong AccountCall.handler AccountCall.Proper calls s) (a : Id) :
    ∃ new, (runAll (calls.map AccountCall.handler) s).rowsOn a = s.rowsOn a ++ new ∧
      (new.Pairwise fun r r' => r.createdAt ≤ r'.createdAt) ∧
      (∀ r ∈ new, r.createdAt ∈ calls.map AccountCall.now) ∧
      Carries SavingsTransaction.signed SavingsTransaction.balanceAfter (s.balanceOf a) new
        ((runAll (calls.map AccountCall.handler) s).balanceOf a) := by
  induction calls generalizing s with
  | nil => exact ⟨[], (List.append_nil _).symm, .nil, nofun, rfl⟩
  | cons call calls ih =>
    rw [List.map_cons, List.pairwise_cons] at htimes
    obtain ⟨old, hold, hnow, hcarries⟩ := call.continues hproper.1 a
    obtain ⟨new, hnew, hsorted, hlater, hcarries'⟩ := ih htimes.2 hproper.2
    refine ⟨old ++ new, ?_, ?_, ?_, hcarries.append hcarries'⟩
    · rw [← List.append_assoc, ← hold]
      exact hnew
    · rw [List.pairwise_append]
      refine ⟨List.pairwise_of_forall_mem_list fun r hr r' hr' => ?_, hsorted, fun r hr r' hr' => ?_⟩
      · exact (hnow r hr).trans_le (hnow r' hr').ge
      · rw [hnow r hr]
        exact htimes.1 _ (hlater r' hr')
    · intro r hr
      rw [List.map_cons]
      rcases List.mem_append.mp hr with hr | hr
      · rw [hnow r hr]
        exact List.mem_cons_self ..
      · exact List.mem_cons_of_mem _ (hlater r hr)

/-! ## Consecutive statements -/

/-- Of rows in the order of time the last one is the latest. -/
theorem latestTransaction_eq_getLast? {rows : List SavingsTransaction}
    (h : rows.Pairwise fun r r' => r.createdAt ≤ r'.createdAt) :
    latestTransaction rows = rows.getLast? := by
  induction rows with
  | nil => rfl
  | cons r rows ih =>
    obtain ⟨hfirst, hrest⟩ := List.pairwise_cons.mp h
    rw [latestTransaction, ih hrest]
    cases hlast : rows.getLast? with
    | none =>
      rw [List.getLast?_eq_none_iff.mp hlast]
      rfl
    | some r' =>
      dsimp only
      rw [if_pos (hfirst r' (List.mem_of_getLast? hlast)), List.getLast?_cons, hlast]
      rfl

section Statement

variable {s : Db} {auth : Auth} {a : Id} {acct : SavingsAccount} {body : StatementPeriod}

/-- The balance after the last of some rows. -/
theorem getD_map_balanceAfter (rows : List SavingsTransaction) (b : Cents) :
    (rows.getLast?.map fun t => toNumber t.balanceAfter).getD (toNumber b) =
      toNumber ((rows.getLast?.map SavingsTransaction.balanceAfter).getD b) := by
  cases rows.getLast? with
  | none => rfl
  | some t => rfl

/-- A statement of rows in order notes the balances at the ends of its period, and its rows lead
from one to the other. -/
theorem run_generateStatement (haccount : s.find? .savingsAccount a = some acct)
    (hinst : acct.institutionId = auth.institutionId)
    (hsorted : (s.rowsOn a).Pairwise fun r r' => r.createdAt ≤ r'.createdAt) {b : Cents}
    (hcarries : Carries SavingsTransaction.signed SavingsTransaction.balanceAfter 0 (s.rowsOn a) b)
    (hperiod : body.periodStart ≤ endOfDay body.periodEnd + 1) :
    ∃ statement t, (generateStatement auth a body).run s = (.ok statement, t) ∧
      s.Agree [.savingsAccount, .savingsTransaction] t ∧
      statement.openingBalance = balanceBefore SavingsTransaction.balanceAfter
        SavingsTransaction.createdAt 0 (s.rowsOn a) body.periodStart ∧
      statement.closingBalance = balanceBefore SavingsTransaction.balanceAfter
        SavingsTransaction.createdAt 0 (s.rowsOn a) (endOfDay body.periodEnd + 1) ∧
      toNumber statement.closingBalance - toNumber statement.openingBalance =
        (statement.transactionSnapshot.map StatementLine.signed).sum := by
  have hfound : (s.find? .savingsAccount a).filter
      (fun r => r.institutionId = auth.institutionId) = some acct := by
    rw [haccount]
    exact Option.filter_some_pos (decide_eq_true hinst)
  have hprior : latestTransaction ((s.table .savingsTransaction).values.filter fun t =>
      t.accountId = a ∧ t.createdAt < body.periodStart) =
        ((s.rowsOn a).filter fun t => t.createdAt < body.periodStart).getLast? := by
    rw [← latestTransaction_eq_getLast? (hsorted.filter _), Db.rowsOn, List.filter_filter]
    congr 1
    exact List.filter_congr fun t _ => by simp [Bool.and_comm]
  have hbetween : ((s.table .savingsTransaction).values.filter fun t =>
      t.accountId = a ∧ body.periodStart ≤ t.createdAt ∧
        t.createdAt ≤ endOfDay body.periodEnd).insertionSort
          (fun r r' => r.createdAt ≤ r'.createdAt) =
      between SavingsTransaction.createdAt (s.rowsOn a) body.periodStart
        (endOfDay body.periodEnd + 1) := by
    rw [between, Db.rowsOn, List.filter_filter]
    have hsame : (s.table .savingsTransaction).values.filter (fun t =>
        t.accountId = a ∧ body.periodStart ≤ t.createdAt ∧
          t.createdAt ≤ endOfDay body.periodEnd) = s.rows.filter fun t =>
        (decide (body.periodStart ≤ t.createdAt ∧ t.createdAt < endOfDay body.periodEnd + 1) &&
          decide (t.accountId = a)) := by
      apply List.filter_congr
      intro t _
      rw [Bool.eq_iff_iff]
      simp only [decide_eq_true_eq, Bool.and_eq_true, Int.lt_add_one_iff]
      exact and_comm
    rw [hsame]
    apply List.Pairwise.insertionSort_eq
    rw [← List.filter_filter]
    exact hsorted.filter _
  have hmoves := hcarries.between hsorted hperiod
  have hopening : ((latestTransaction ((s.table .savingsTransaction).values.filter
      fun t => t.accountId = a ∧ t.createdAt < body.periodStart)).map
        fun t => toNumber t.balanceAfter).getD 0 =
      toNumber (balanceBefore SavingsTransaction.balanceAfter SavingsTransaction.createdAt 0
        (s.rowsOn a) body.periodStart) := by
    rw [hprior, ← toNumber_zero, getD_map_balanceAfter]
    rfl
  refine ⟨_, _, by
    unfold generateStatement findById
    rw [run_bind_ok (run_query _ s), hfound]
    rfl, ?_, ?_, ?_, ?_⟩
  · exact (Db.Agree.insert (by decide) _ _).trans (Db.Agree.insert (by decide) _ _)
  all_goals dsimp only
  · rw [hopening, ofNumber_toNumber]
  · rw [hopening, hbetween, getD_map_balanceAfter, ofNumber_toNumber, ← hmoves.eq_last]
  · rw [hopening, hbetween, getD_map_balanceAfter, ofNumber_toNumber, ofNumber_toNumber,
      ← hmoves.eq_last, hmoves.eq_add_sum, toNumber_add, add_sub_cancel_left, toNumber_sum,
      List.map_map, List.map_map]
    congr 1
    exact List.map_congr_left fun t _ => (SavingsTransaction.signed_statementLine t).symm

/-- The moment after a whole day is the beginning of the next one. -/
theorem endOfDay_add_one (day : ℤ) : endOfDay (day * msPerDay) + 1 = (day + 1) * msPerDay := by
  have hstart : startOfDay (day * msPerDay) = day * msPerDay := by
    rw [startOfDay, Int.mul_emod_left, sub_zero]
  rw [endOfDay, hstart]
  ring

end Statement

/-- Of two consecutive periods of whole days, in the history of an account from its first row on,
the second statement opens with the balance with which the first one closes, and each balance moves
by the signed sum of the transactions of its statement. -/
theorem statements_continuous {calls : List AccountCall} {s : Db} {a : Id}
    (hzero : s.balanceOf a = 0) (hnone : s.rowsOn a = [])
    (htimes : (calls.map AccountCall.now).Pairwise (· ≤ ·))
    (hproper : AllAlong AccountCall.handler AccountCall.Proper calls s) {auth : Auth}
    {acct : SavingsAccount}
    (haccount : (runAll (calls.map AccountCall.handler) s).find? .savingsAccount a = some acct)
    (hinst : acct.institutionId = auth.institutionId) (day : ℤ) (more more' : ℕ) :
    ∃ first t second u,
      (generateStatement auth a ⟨day * msPerDay, (day + more) * msPerDay⟩).run
        (runAll (calls.map AccountCall.handler) s) = (.ok first, t) ∧
      (generateStatement auth a
        ⟨(day + more + 1) * msPerDay, (day + more + 1 + more') * msPerDay⟩).run t =
          (.ok second, u) ∧
      first.closingBalance = second.openingBalance ∧
      toNumber first.closingBalance - toNumber first.openingBalance =
        (first.transactionSnapshot.map StatementLine.signed).sum ∧
      toNumber second.closingBalance - toNumber second.openingBalance =
        (second.transactionSnapshot.map StatementLine.signed).sum := by
  obtain ⟨new, hrows, hsorted, -, hcarries⟩ := runAll_carries htimes hproper a
  rw [hnone, List.nil_append] at hrows
  rw [hzero] at hcarries
  rw [← hrows] at hsorted hcarries
  have hperiod : ∀ (first : ℤ) (days : ℕ),
      first * msPerDay ≤ endOfDay ((first + days) * msPerDay) + 1 := by
    intro first days
    rw [endOfDay_add_one]
    apply Int.mul_le_mul_of_nonneg_right ?_ (by decide)
    linarith [Int.natCast_nonneg days]
  obtain ⟨first, t, hfirst, hagree, -, hclosing, hsum⟩ :=
    @run_generateStatement _ auth a acct ⟨day * msPerDay, (day + more) * msPerDay⟩ haccount hinst
      hsorted _ hcarries (hperiod day more)
  have hsame : t.rowsOn a = (runAll (calls.map AccountCall.handler) s).rowsOn a := by
    rw [Db.rowsOn, Db.rows_congr (hagree _ (by decide))]
    rfl
  rw [← hsame] at hsorted hcarries hclosing
  rw [← hagree.find? (by decide)] at haccount
  obtain ⟨second, u, hsecond, -, hopening, -, hsum'⟩ :=
    @run_generateStatement _ auth a acct
      ⟨(day + more + 1) * msPerDay, (day + more + 1 + more') * msPerDay⟩ haccount hinst hsorted _
        hcarries (hperiod _ more')
  refine ⟨first, t, second, u, hfirst, hsecond, ?_, hsum, hsum'⟩
  rw [hclosing, hopening, endOfDay_add_one]

/-- A deposit on one day, a fee on the next one, and its waiver on the day after. -/
def feeWaived : List AccountCall :=
  [.move (.deposit ⟨1, 1⟩ 4 1 50), .move (.chargeFee ⟨1, 1⟩ (msPerDay + 4) 1 1),
    .move (.waiveFee ⟨1, 1⟩ (2 * msPerDay + 4) 1 none)]

theorem statements_continuous_feeWaived :
    ∃ first t second u,
      (generateStatement ⟨1, 1⟩ 1 ⟨0, 0⟩).run
        (runAll (feeWaived.map AccountCall.handler) freshLedger) = (.ok first, t) ∧
      (generateStatement ⟨1, 1⟩ 1 ⟨msPerDay, 2 * msPerDay⟩).run t = (.ok second, u) ∧
      first.closingBalance = second.openingBalance ∧
      toNumber first.closingBalance - toNumber first.openingBalance =
        (first.transactionSnapshot.map StatementLine.signed).sum ∧
      toNumber second.closingBalance - toNumber second.openingBalance =
        (second.transactionSnapshot.map StatementLine.signed).sum := by
  have hproper : AllAlong AccountCall.handler AccountCall.Proper feeWaived freshLedger :=
    ⟨⟨5000, by norm_num [toNumber]⟩, trivial, trivial, trivial⟩
  have haccount : ((runAll (feeWaived.map AccountCall.handler) freshLedger).find? .savingsAccount
      1).map (fun acct => acct.institutionId) = some 1 := by decide +kernel
  obtain ⟨acct, hacct, hinst⟩ := Option.map_eq_some_iff.mp haccount
  exact @statements_continuous feeWaived freshLedger 1 (by decide +kernel) (by decide +kernel)
    (by decide) hproper ⟨1, 1⟩ acct hacct hinst 0 0 1

-- The second statement opens with the deposit and closes with it, with two rows in between.
example : (((generateStatement ⟨1, 1⟩ 1 ⟨msPerDay, 2 * msPerDay⟩).run
    (runAll (feeWaived.map AccountCall.handler) freshLedger)).1.toOption.map fun statement =>
      (statement.openingBalance, statement.closingBalance,
        statement.transactionSnapshot.length)) = some (5000, 5000, 2) := by decide +kernel

end NexusEfos
