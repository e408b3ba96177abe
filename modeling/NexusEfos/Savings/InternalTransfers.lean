/-
Internal transfers, created by `POST /standing-instructions` of `routes/savings.routes.ts`
and executed alone.

Both new balances are computed from reads that come before either write, and written as
they are.  The endpoint does not compare source and destination.  So a transfer conserves
the money exactly when the two differ, or when its amount is rounded to nothing
(`transfer_conserves_iff`).
-/
import NexusEfos.Savings.Balances
import NexusEfos.Savings.Steps

namespace NexusEfos

/-! ## Creation -/

/-- `createSISchema`.  `startDate` is `new Date(startDate)`, absent when that is
invalid. -/
structure CreateStandingInstruction where
  type : StandingInstructionType
  sourceAccountId : Id
  destinationAccountId : Option Id := none
  destinationLoanId : Option Id := none
  amount : ℚ
  frequency : StandingInstructionFrequency
  customIntervalDays : Option ℤ := none
  startDate : Option DateTime

/-- `POST /standing-instructions`. -/
def createStandingInstruction (auth : Auth) (body : CreateStandingInstruction) : Handler Id := do
  Proc.require (0 < body.amount ∧ ∀ days ∈ body.customIntervalDays, 0 < days) .invalid
  Proc.require (body.type = .internalTransfer → body.destinationAccountId.isSome = true)
    (.http 400 "destinationAccountId is required for INTERNAL_TRANSFER")
  Proc.require (body.type = .loanRepayment → body.destinationLoanId.isSome = true)
    (.http 400 "destinationLoanId is required for LOAN_REPAYMENT")
  let source ← findById .savingsAccount body.sourceAccountId fun a =>
    a.institutionId = auth.institutionId ∧ a.status = .active
  let _ ← Proc.orFail source (.http 404 "Source account not found or not ACTIVE — doc §58.5 'execute only on active accounts' applies at creation too")
  let nextExecutionDate ← Proc.orFail body.startDate (.thrown "PrismaClientValidationError")
  let instruction ← create .standingInstruction
    { institutionId := auth.institutionId, type := body.type,
      sourceAccountId := body.sourceAccountId, destinationAccountId := body.destinationAccountId,
      destinationLoanId := body.destinationLoanId, amount := ofNumber body.amount,
      frequency := body.frequency, customIntervalDays := body.customIntervalDays,
      nextExecutionDate, createdById := auth.userId }
  let _ ← create .auditLog
    { institutionId := auth.institutionId, userId := some auth.userId,
      action := "savings.standing_instruction_created", resource := "standing_instruction",
      resourceId := some instruction }
  return instruction

/-- A transfer that the endpoint has stored.  Its dates and its counter may have changed
since. -/
def StandingInstruction.IsCreatedTransfer (si : StandingInstruction) (destId : Id) : Prop :=
  ∃ (s s' : Db) (auth : Auth) (body : CreateStandingInstruction) (siId : Id)
    (row : StandingInstruction),
    (createStandingInstruction auth body).run s = (.ok siId, s') ∧
    s'.find? .standingInstruction siId = some row ∧ row.type = .internalTransfer ∧
    row.destinationAccountId = some destId ∧ si.type = row.type ∧
    si.sourceAccountId = row.sourceAccountId ∧
    si.destinationAccountId = row.destinationAccountId ∧ si.amount = row.amount

/-- What is stored is no negative amount. -/
theorem StandingInstruction.IsCreatedTransfer.stored {si : StandingInstruction} {destId : Id}
    (h : si.IsCreatedTransfer destId) : si.type = .internalTransfer ∧
      si.destinationAccountId = some destId ∧ 0 ≤ si.amount := by
  obtain ⟨s, s', auth, body, siId, row, hrun, hrow, htype, hdest, hsame, -, hdest', hamount⟩ := h
  refine ⟨hsame.trans htype, hdest'.trans hdest, ?_⟩
  obtain ⟨hbody, h₁⟩ := run_require_bind_eq_ok hrun
  obtain ⟨-, h₂⟩ := run_require_bind_eq_ok h₁
  obtain ⟨-, h₃⟩ := run_require_bind_eq_ok h₂
  obtain ⟨found, s₁, -, h₄⟩ := Proc.run_bind_eq_ok h₃
  obtain ⟨source, s₂, -, h₅⟩ := Proc.run_bind_eq_ok h₄
  obtain ⟨date, s₃, -, h₆⟩ := Proc.run_bind_eq_ok h₅
  obtain ⟨id, s₄, hcreate, h₇⟩ := Proc.run_bind_eq_ok h₆
  obtain ⟨hid, hs₄⟩ := run_create_eq_ok hcreate
  obtain ⟨log, s₅, hlog, h₈⟩ := Proc.run_bind_eq_ok h₇
  obtain ⟨-, hs₅⟩ := run_create_eq_ok hlog
  obtain ⟨hanswer, hs'⟩ := Prod.mk.inj h₈
  rw [← hs', hs₅, Db.find?_insert_of_ne (by decide), hs₄, Db.find?_insert,
    if_pos ((Except.ok.inj hanswer).symm.trans hid)] at hrow
  rw [hamount, ← Option.some.inj hrow]
  exact ofNumber_nonneg hbody.1.le

/-! ## Execution -/

namespace Db

/-- The executions of instructions, oldest first. -/
def executions (s : Db) : List StandingInstructionExecution :=
  (s.table .standingInstructionExecution).values

/-- A turn of the loop that executed the instruction: it recorded a success. -/
def Executed (s s' : Db) : Prop :=
  ∃ e : StandingInstructionExecution, e.status = .success ∧ s'.executions = s.executions ++ [e]

/-- The balances and rows of a transfer, as the code writes them. -/
def transfer (s : Db) (now : DateTime) (si : StandingInstruction) (destId : Id)
    (source dest : SavingsAccount) : Db :=
  ((s.modify .savingsAccount si.sourceAccountId
      (SavingsAccount.setCents (source.balance - si.amount))).modify .savingsAccount destId
      (SavingsAccount.setCents (dest.balance + si.amount))).insertAll .savingsTransaction
    [⟨si.sourceAccountId, .withdrawal, si.amount, source.balance - si.amount, some si.createdById,
        now⟩,
      ⟨destId, .deposit, si.amount, dest.balance + si.amount, some si.createdById, now⟩]

end Db

theorem Db.not_executed {s s' : Db} {e : StandingInstructionExecution}
    (h : s'.executions = s.executions ++ [e]) (he : e.status = .failed) : ¬ s.Executed s' := by
  intro hexecuted
  obtain ⟨e', hsuccess, h'⟩ := hexecuted
  have hsame : e = e' := by simpa using List.append_cancel_left (h.symm.trans h')
  rw [hsame, hsuccess] at he
  exact absurd he nofun

theorem Db.executions_insert (s : Db) (e : StandingInstructionExecution) :
    (s.insert .standingInstructionExecution e).executions = s.executions ++ [e] := by
  rw [executions, table_insert_self, OrderedMap.values_create]
  rfl

/-- A turn that ends for want of money or of an account is recorded as a failure. -/
theorem run_failInsufficient_not_executed {s s' : Db} {siId : Id} {si : StandingInstruction}
    {reason : String} {u : Unit} (h : (failInsufficient siId si reason).run s = (.ok u, s')) :
    ¬ s.Executed s' := by
  obtain ⟨row, s₁, hupdate, h₁⟩ := Proc.run_bind_eq_ok h
  obtain ⟨si', -, -, hs₁⟩ := run_update_eq_ok hupdate
  obtain ⟨id, s₂, hcreate, h₂⟩ := Proc.run_bind_eq_ok h₁
  obtain ⟨-, hs₂⟩ := run_create_eq_ok hcreate
  have hsame : s₁.executions = s.executions := by
    rw [Db.executions, hs₁, Db.table_modify_of_ne (by decide)]
    rfl
  refine Db.not_executed (e := ⟨siId, .failed, si.amount, some reason⟩) ?_ rfl
  rw [← (Prod.mk.inj h₂).2, hs₂, Db.executions_insert, hsame]

/-- A transfer that is executed finds both accounts and writes what it computes of them. -/
theorem run_executeInstruction_transfer {s s' : Db} {now : DateTime} {siId destId : Id}
    {si : StandingInstruction} {u : Unit} (htype : si.type = .internalTransfer) (hdest : si.destinationAccountId = some destId)
    (h : (executeInstruction now siId si).run s = (.ok u, s')) (hexecuted : s.Executed s') :
    ∃ source dest, s.find? .savingsAccount si.sourceAccountId = some source ∧
      s.find? .savingsAccount destId = some dest ∧
      (s.transfer now si destId source dest).Agree [.savingsAccount, .savingsTransaction] s' := by
  obtain ⟨found, s₁, hread, h₁⟩ := Proc.run_bind_eq_ok h
  obtain ⟨hfound, hs₁⟩ := Prod.mk.inj hread
  rw [← Except.ok.inj hfound, ← hs₁] at h₁
  dsimp only at h₁
  cases hsource : s.find? .savingsAccount si.sourceAccountId with
  | none =>
    rw [hsource] at h₁
    exact absurd hexecuted (run_failInsufficient_not_executed h₁)
  | some source =>
    simp only [hsource] at h₁
    by_cases hlacks : source.balance < si.amount
    · rw [if_pos hlacks] at h₁
      exact absurd hexecuted (run_failInsufficient_not_executed h₁)
    rw [if_neg hlacks] at h₁
    unfold executeFrom at h₁
    simp only [htype, hdest] at h₁
    obtain ⟨found', s₂, hread', h₂⟩ := Proc.run_bind_eq_ok h₁
    obtain ⟨hfound', hs₂⟩ := Prod.mk.inj hread'
    rw [← Except.ok.inj hfound', ← hs₂] at h₂
    cases hdestination : s.find? .savingsAccount destId with
    | none =>
      simp only [hdestination] at h₂
      obtain ⟨id, s₃, hcreate, h₃⟩ := Proc.run_bind_eq_ok h₂
      obtain ⟨-, hs₃⟩ := run_create_eq_ok hcreate
      rw [(Prod.mk.inj h₃).2] at hs₃
      exact absurd hexecuted (Db.not_executed (by rw [hs₃, Db.executions_insert]) rfl)
    | some dest =>
      simp only [hdestination] at h₂
      obtain ⟨_, s₃, htransfer, h₃⟩ := Proc.run_bind_eq_ok h₂
      obtain ⟨-, hs₃⟩ := run_transferInTx_eq_ok (Proc.run_transaction_eq_ok htransfer)
      have hwithdrawn : ofNumber (toNumber source.balance - toNumber si.amount) =
          source.balance - si.amount := by rw [← toNumber_sub, ofNumber_toNumber]
      have hdeposited : ofNumber (toNumber dest.balance + toNumber si.amount) =
          dest.balance + si.amount := by rw [← toNumber_add, ofNumber_toNumber]
      have htransferred : s₃ = s.transfer now si destId source dest := by
        rw [hs₃, SavingsAccount.setBalance_eq, SavingsAccount.setBalance_eq, hwithdrawn, hdeposited]
        rfl
      have hrecorded : Quiet [.savingsAccount, .savingsTransaction] (recordExecution siId si) :=
        (Quiet.createAs (by decide) _ _).bind fun _ =>
          (Quiet.updateAs (by decide) _ _ _).bind fun _ => .pure _
      have hagree := hrecorded.run s₃
      rw [h₃, htransferred] at hagree
      exact ⟨source, dest, rfl, rfl, hagree⟩

/-! ## Conservation -/

/-- The sum of all savings balances. -/
def Db.allSavings (s : Db) : Cents := (s.table .savingsAccount).total fun _ a => a.balance

/-- What a transfer is to do: the sum of all balances stays, so do all other accounts, and
the two rows hold the balances that result. -/
structure TransferConserves (now : DateTime) (si : StandingInstruction) (destId : Id) (s s' : Db) :
    Prop where
  total : s'.allSavings = s.allSavings
  others : ∀ a, a ≠ si.sourceAccountId → a ≠ destId →
    s'.find? .savingsAccount a = s.find? .savingsAccount a
  recorded : s'.rows = s.rows ++
    [⟨si.sourceAccountId, .withdrawal, si.amount, s'.balanceOf si.sourceAccountId,
        some si.createdById, now⟩,
      ⟨destId, .deposit, si.amount, s'.balanceOf destId, some si.createdById, now⟩]

namespace Db

variable {s s' : Db} {now : DateTime} {si : StandingInstruction} {destId : Id}
  {source dest : SavingsAccount}

theorem allSavings_congr (h : s'.table .savingsAccount = s.table .savingsAccount) :
    s'.allSavings = s.allSavings := by
  unfold allSavings
  rw [h]

theorem allSavings_modify {a : Id} {acct : SavingsAccount}
    (h : s.find? .savingsAccount a = some acct) (c : Cents) :
    (s.modify .savingsAccount a (SavingsAccount.setCents c)).allSavings =
      s.allSavings + (c - acct.balance) := by
  rw [allSavings, table_modify_self, OrderedMap.total_modify_of_some h]
  rfl

theorem find?_transfer (hsource : s.find? .savingsAccount si.sourceAccountId = some source)
    (hdest : s.find? .savingsAccount destId = some dest) (a : Id) :
    (s.transfer now si destId source dest).find? .savingsAccount a =
      if a = destId then some { dest with balance := dest.balance + si.amount,
                                          ledgerBalance := dest.balance + si.amount }
      else if a = si.sourceAccountId then
        some { source with balance := source.balance - si.amount,
                           ledgerBalance := source.balance - si.amount }
      else s.find? .savingsAccount a := by
  rw [transfer, find?, table_insertAll (by decide)]
  refine (find?_modify _ _ _ _ _).trans ?_
  rw [find?_modify]
  by_cases hd : a = destId
  · rw [if_pos hd, if_pos hd]
    by_cases hs : a = si.sourceAccountId
    · rw [if_pos hs, hd, hdest]
      rfl
    · rw [if_neg hs, hd, hdest]
      rfl
  · rw [if_neg hd, if_neg hd]
    by_cases hs : a = si.sourceAccountId
    · rw [if_pos hs, if_pos hs, hs, hsource]
      rfl
    · rw [if_neg hs, if_neg hs]

/-- The first write is lost when source and destination are the same account. -/
theorem allSavings_transfer (hsource : s.find? .savingsAccount si.sourceAccountId = some source)
    (hdest : s.find? .savingsAccount destId = some dest) :
    (s.transfer now si destId source dest).allSavings =
      s.allSavings + if si.sourceAccountId = destId then si.amount else 0 := by
  rw [transfer, allSavings_congr (table_insertAll (by decide) _ _)]
  by_cases h : si.sourceAccountId = destId
  · have hread : (s.modify .savingsAccount si.sourceAccountId
        (SavingsAccount.setCents (source.balance - si.amount))).find? .savingsAccount destId =
          some (SavingsAccount.setCents (source.balance - si.amount) source) := by
      rw [find?_modify, if_pos h.symm, ← h, hsource]
      rfl
    have hsame : dest = source := by
      rw [← h, hsource] at hdest
      exact (Option.some.inj hdest).symm
    rw [allSavings_modify hread, allSavings_modify hsource, if_pos h, hsame]
    show s.allSavings + (source.balance - si.amount - source.balance) +
      (source.balance + si.amount - (source.balance - si.amount)) = s.allSavings + si.amount
    ring
  · have hread : (s.modify .savingsAccount si.sourceAccountId
        (SavingsAccount.setCents (source.balance - si.amount))).find? .savingsAccount destId =
          some dest := by
      rw [find?_modify, if_neg (Ne.symm h), hdest]
    rw [allSavings_modify hread, allSavings_modify hsource, if_neg h]
    ring

end Db

/-- An execution of a transfer conserves the money exactly when source and destination
differ, or when nothing is transferred. -/
theorem transfer_conserves_iff {now : DateTime} {si : StandingInstruction} {siId destId : Id} {s s' : Db}
    (hcreated : si.IsCreatedTransfer destId)
    (hrun : (executeInstruction now siId si).run s = (.ok (), s')) (hexecuted : s.Executed s') :
    TransferConserves now si destId s s' ↔ si.sourceAccountId ≠ destId ∨ si.amount = 0 := by
  obtain ⟨htype, hdestination, -⟩ := hcreated.stored
  obtain ⟨source, dest, hsource, hdest, hagree⟩ :=
    run_executeInstruction_transfer htype hdestination hrun hexecuted
  have hfind : ∀ a, s'.find? .savingsAccount a = _ := fun a =>
    (hagree.find? (by decide) a).trans (Db.find?_transfer hsource hdest a)
  have htotal : s'.allSavings = s.allSavings + if si.sourceAccountId = destId then si.amount else 0 :=
    (Db.allSavings_congr (hagree _ (by decide))).trans (Db.allSavings_transfer hsource hdest)
  have hrows : s'.rows = s.rows ++
      [⟨si.sourceAccountId, .withdrawal, si.amount, source.balance - si.amount,
          some si.createdById, now⟩,
        ⟨destId, .deposit, si.amount, dest.balance + si.amount, some si.createdById, now⟩] := by
    rw [Db.rows_congr (hagree _ (by decide)), Db.transfer, Db.rows_insertAll, Db.rows,
      Db.table_modify_of_ne (by decide), Db.table_modify_of_ne (by decide)]
    rfl
  have hdeposited : s'.balanceOf destId = dest.balance + si.amount := by
    rw [Db.balanceOf, hfind, if_pos rfl]
    rfl
  constructor
  · intro h
    by_cases hself : si.sourceAccountId = destId
    · have hzero := h.total
      rw [htotal, if_pos hself] at hzero
      exact .inr (add_eq_left.mp hzero)
    · exact .inl hself
  · intro h
    have hwithdrawn : s'.balanceOf si.sourceAccountId = source.balance - si.amount := by
      by_cases hself : si.sourceAccountId = destId
      · have hzero := h.resolve_left (not_not_intro hself)
        rw [← hself, hsource] at hdest
        rw [hself, hdeposited, ← Option.some.inj hdest, hzero, add_zero, sub_zero]
      · rw [Db.balanceOf, hfind, if_neg hself, if_pos rfl]
        rfl
    refine ⟨?_, fun a hs hd => ?_, ?_⟩
    · rw [htotal]
      rcases h with hne | hzero
      · rw [if_neg hne, add_zero]
      · rw [hzero, ite_self, add_zero]
    · rw [hfind, if_neg hd, if_neg hs]
    · rw [hrows, hwithdrawn, hdeposited]

/-! ## A transfer to another account and one to the same -/

/-- Two accounts of 100.00 each. -/
def transferLedger : Db :=
  (Db.empty.insert .savingsAccount
    { institutionId := 1, customerId := 1, balance := 10000, ledgerBalance := 10000 }).insert
    .savingsAccount { institutionId := 1, customerId := 2, balance := 10000, ledgerBalance := 10000 }

/-- A monthly transfer of 10.00 from the first account. -/
def monthlyTransfer (destId : Id) : CreateStandingInstruction :=
  { type := .internalTransfer, sourceAccountId := 1, destinationAccountId := some destId,
    amount := 10, frequency := .monthly, startDate := some 0 }

/-- The instruction that is stored. -/
def storedTransfer (destId : Id) : StandingInstruction :=
  { institutionId := 1, type := .internalTransfer, sourceAccountId := 1,
    destinationAccountId := some destId, amount := 1000, frequency := .monthly,
    nextExecutionDate := 0, createdById := 1 }

theorem isCreatedTransfer_storedTransfer (destId : Id) :
    (storedTransfer destId).IsCreatedTransfer destId := by
  have hamount : ofNumber 10 = 1000 := by decide +kernel
  refine ⟨transferLedger, ((createStandingInstruction ⟨1, 1⟩ (monthlyTransfer destId)).run
    transferLedger).2, ⟨1, 1⟩, monthlyTransfer destId, 1,
    { storedTransfer destId with amount := ofNumber 10 }, Prod.ext ?_ rfl, ?_, rfl, rfl, rfl, rfl, rfl,
    hamount.symm⟩
  · rfl
  · rfl

/-- The database with an instruction, and after it has been executed. -/
def beforeTransfer (destId : Id) : Db :=
  transferLedger.insert .standingInstruction (storedTransfer destId)

def afterTransfer (destId : Id) : Db :=
  ((executeInstruction 0 1 (storedTransfer destId)).run (beforeTransfer destId)).2

theorem transfer_conserves_iff_other :
    TransferConserves 0 (storedTransfer 2) 2 (beforeTransfer 2) (afterTransfer 2) ↔
      (storedTransfer 2).sourceAccountId ≠ 2 ∨ (storedTransfer 2).amount = 0 :=
  transfer_conserves_iff (isCreatedTransfer_storedTransfer 2) (Prod.ext rfl rfl)
    ⟨⟨1, .success, 1000, none⟩, rfl, rfl⟩

/-- A transfer of 10.00 from an account to itself makes 10.00. -/
theorem selfTransfer_makes_money :
    (storedTransfer 1).IsCreatedTransfer 1 ∧
    ((executeInstruction 0 1 (storedTransfer 1)).run (beforeTransfer 1)).1 = .ok () ∧
    (beforeTransfer 1).Executed (afterTransfer 1) ∧
    (afterTransfer 1).allSavings = (beforeTransfer 1).allSavings + 1000 ∧
    ¬ TransferConserves 0 (storedTransfer 1) 1 (beforeTransfer 1) (afterTransfer 1) :=
  ⟨isCreatedTransfer_storedTransfer 1, rfl, ⟨⟨1, .success, 1000, none⟩, rfl, rfl⟩,
    by decide +kernel, fun h => absurd h.total (by decide +kernel)⟩

end NexusEfos
