/-
What comes after the undo of an import.

An undo stamps accounts and loans as deleted, and the operations on them look at their status
and their institution only.  So an operation leaves the stamped rows alone if it finds none of
them when it starts, and works on those it finds.
-/
import Mathlib.Data.Fin.VecNotation
import NexusEfos.Operations.DeletedRows
import NexusEfos.Operations.ImportBatches
import NexusEfos.Savings.GuardedPaths

namespace NexusEfos

open Proc

/-! ## The operations -/

/-- An operation on savings accounts or loans. -/
inductive PortfolioOperation
  | savings (op : SavingsOperation)
  | accrueInterest (auth : Auth) (now : DateTime) (accountId : Id) (date : Option DateTime)
  | accrueAllInterest (auth : Auth) (now : DateTime) (date : Option DateTime)
  | runSavingsInterestAccrual (now : DateTime)
  | recordRepayment (auth : Auth) (now : DateTime) (loanId : Id) (amount : ℚ)
  | approveLoan (js : Js) (auth : Auth) (now : DateTime) (loanId : Id)
  | disburseLoan (js : Js) (auth : Auth) (now : DateTime) (loanId : Id) (vaultId : Option Id)
  | runArrearsCheck (today : DateTime)

namespace PortfolioOperation

/-- The code an operation runs. -/
def handler : PortfolioOperation → Handler Unit
  | savings op => op.handler
  | accrueInterest auth now accountId date =>
    discard (NexusEfos.accrueInterest auth now accountId date)
  | accrueAllInterest auth now date => discard (NexusEfos.accrueAllInterest auth now date)
  | runSavingsInterestAccrual now => discard (NexusEfos.runSavingsInterestAccrual now)
  | recordRepayment auth now loanId amount =>
    discard (NexusEfos.recordRepayment auth now loanId amount)
  | approveLoan js auth now loanId => discard (NexusEfos.approveLoan js auth now loanId)
  | disburseLoan js auth now loanId vaultId =>
    discard (NexusEfos.disburseLoan js auth now loanId vaultId)
  | runArrearsCheck today => NexusEfos.runArrearsCheck today

end PortfolioOperation

/-- The instructions that are due. -/
def Db.dueInstructions (s : Db) (now : DateTime) : List StandingInstruction :=
  (s.table .standingInstruction).values.filter fun si =>
    si.status = .active ∧ si.nextExecutionDate ≤ now

/-- The accounts that are active and earn interest. -/
def Db.earningAccounts (s : Db) : List (Id × SavingsAccount) :=
  (s.table .savingsAccount).entries.filter fun e =>
    e.2.status = .active ∧ e.2.interestSuspended = false

/-- The savings accounts an operation works on, as it finds them when it starts: the one it has
been called with, that of the charge, posting or collection, or those it selects. -/
def SavingsOperation.accounts (s : Db) : SavingsOperation → List Id
  | deposit _ _ a _ | withdraw _ _ a _ | chargeFee _ _ a _ | postInterest _ _ a => [a]
  | waiveFee _ _ chargeId _ =>
    ((s.find? .savingsFeeCharge chargeId).map fun charge => charge.accountId).toList
  | runStandingInstructions now => (s.dueInstructions now).flatMap fun si =>
      si.sourceAccountId :: si.destinationAccountId.toList
  | postAllInterest _ institutionId _ _ => s.accountsWithUnposted institutionId
  | reverseInterest _ _ postingId _ =>
    ((s.find? .savingsInterestPosting postingId).map fun posting => posting.accountId).toList
  | recordCollection _ _ body => if body.type = .savingsDeposit then [body.targetId] else []
  | reverseCollection _ _ collectionId _ =>
    (((s.find? .collectionTransaction collectionId).filter fun c => c.type = .savingsDeposit).map
      fun c => c.targetId).toList

/-- The loans an operation on savings accounts works on. -/
def SavingsOperation.loans : SavingsOperation → List Id
  | recordCollection _ _ body => if body.type = .loanRepayment then [body.targetId] else []
  | _ => []

namespace PortfolioOperation

def accounts (s : Db) : PortfolioOperation → List Id
  | savings op => op.accounts s
  | accrueInterest _ _ a _ => [a]
  | accrueAllInterest auth _ _ =>
    (s.earningAccounts.filter fun e => e.2.institutionId = auth.institutionId).map Prod.fst
  | runSavingsInterestAccrual _ => s.earningAccounts.map Prod.fst
  | _ => []

def loans (s : Db) : PortfolioOperation → List Id
  | savings op => op.loans
  | recordRepayment _ _ l _ | approveLoan _ _ _ l | disburseLoan _ _ _ l _ => [l]
  | runArrearsCheck _ => s.runningLoans.map fun e => e.1.1
  | _ => []

/-- None of the accounts and loans that the operation finds is deleted. -/
def FindsNoneDeleted (op : PortfolioOperation) (s : Db) : Prop :=
  (∀ a ∈ op.accounts s, ¬ s.AccountDeleted a) ∧ ∀ l ∈ op.loans s, ¬ s.LoanDeleted l

instance (op : PortfolioOperation) (s : Db) : Decidable (op.FindsNoneDeleted s) :=
  inferInstanceAs (Decidable ((∀ a ∈ _, _) ∧ ∀ l ∈ _, _))

end PortfolioOperation

/-- An operation leaves alone what is deleted when it starts, unless it finds it. -/
theorem SavingsOperation.starts (op : SavingsOperation) :
    op.handler.Starts (PortfolioOperation.savings op).FindsNoneDeleted LeavesDeleted := by
  have hdone : ∀ {α : Type} {C : Db → Prop} {p : Handler α}, p.Starts C LeavesDeleted →
      (discard p).Starts C LeavesDeleted := fun hp =>
    hp.bind fun _ _ _ => trivial
  cases op with
  | deposit auth now a x =>
    apply hdone
    apply Starts.of_everyStep
    intro s hs
    exact LeavesDeleted.deposit (hs.1 a (List.mem_singleton_self a)) auth now x
  | withdraw auth now a x =>
    apply hdone
    apply Starts.of_everyStep
    intro s hs
    exact LeavesDeleted.withdraw (hs.1 a (List.mem_singleton_self a)) auth now x
  | chargeFee auth now a feeTypeId =>
    apply hdone
    apply Starts.of_everyStep
    intro s hs
    exact LeavesDeleted.chargeFee (hs.1 a (List.mem_singleton_self a)) auth now feeTypeId
  | waiveFee auth now chargeId reason =>
    apply hdone
    apply (LeavesDeleted.waiveFee auth now chargeId reason).imp
    intro s hs charge hcharge
    apply hs.1
    show charge.accountId ∈ Option.toList _
    rw [Option.mem_toList, hcharge]
    rfl
  | runStandingInstructions now =>
    apply (LeavesDeleted.runStandingInstructions now).imp
    intro s hs si hsi hactive hdue
    have hmem : si ∈ s.dueInstructions now :=
      List.mem_filter.mpr ⟨hsi, decide_eq_true ⟨hactive, hdue⟩⟩
    constructor
    · exact hs.1 _ (List.mem_flatMap.mpr ⟨si, hmem, List.mem_cons_self ..⟩)
    · intro destId hdest
      apply hs.1
      refine List.mem_flatMap.mpr ⟨si, hmem, List.mem_cons_of_mem _ ?_⟩
      exact Option.mem_toList.mpr hdest
  | postInterest auth now a =>
    apply hdone
    apply Starts.of_everyStep
    intro s hs
    exact LeavesDeleted.postInterest (hs.1 a (List.mem_singleton_self a)) auth now
  | postAllInterest now institutionId postedById batchId =>
    apply hdone
    apply (LeavesDeleted.postAllForInstitution now institutionId postedById batchId).imp
    exact fun s hs => hs.1
  | reverseInterest auth now postingId reason =>
    apply (LeavesDeleted.reverseInterest auth now postingId reason).imp
    intro s hs posting hposting
    apply hs.1
    show posting.accountId ∈ Option.toList _
    rw [Option.mem_toList, hposting]
    rfl
  | recordCollection auth now body =>
    apply hdone
    apply Starts.of_everyStep
    intro s hs
    apply LeavesDeleted.recordCollection
    · intro htype
      apply hs.1
      show body.targetId ∈ ite _ _ _
      rw [if_pos htype]
      exact List.mem_singleton_self _
    · intro htype
      apply hs.2
      show body.targetId ∈ ite _ _ _
      rw [if_pos htype]
      exact List.mem_singleton_self _
  | reverseCollection auth now collectionId reason =>
    apply hdone
    apply (LeavesDeleted.reverseCollection auth now collectionId reason).imp
    intro s hs c hc htype
    apply hs.1
    show c.targetId ∈ Option.toList _
    rw [Option.mem_toList, hc, Option.filter_some, if_pos (decide_eq_true htype)]
    rfl

theorem PortfolioOperation.starts (op : PortfolioOperation) :
    op.handler.Starts op.FindsNoneDeleted LeavesDeleted := by
  have hdone : ∀ {α : Type} {C : Db → Prop} {p : Handler α}, p.Starts C LeavesDeleted →
      (discard p).Starts C LeavesDeleted := fun hp =>
    hp.bind fun _ _ _ => trivial
  cases op with
  | savings op => exact op.starts
  | accrueInterest auth now a date =>
    apply hdone
    apply Starts.of_everyStep
    intro s hs
    exact LeavesDeleted.accrueInterest (hs.1 a (List.mem_singleton_self a)) auth now date
  | accrueAllInterest auth now date =>
    apply hdone
    apply (LeavesDeleted.accrueAllInterest auth now date).imp
    intro s hs e he hinstitution hactive hearning
    have hmem : e ∈ s.earningAccounts :=
      List.mem_filter.mpr ⟨he, decide_eq_true ⟨hactive, hearning⟩⟩
    exact hs.1 _ (List.mem_map_of_mem (List.mem_filter.mpr ⟨hmem, decide_eq_true hinstitution⟩))
  | runSavingsInterestAccrual now =>
    apply hdone
    apply (LeavesDeleted.runSavingsInterestAccrual now).imp
    intro s hs e he hactive hearning
    exact hs.1 _ (List.mem_map_of_mem (List.mem_filter.mpr ⟨he, decide_eq_true ⟨hactive, hearning⟩⟩))
  | recordRepayment auth now l x =>
    apply hdone
    apply Starts.of_everyStep
    intro s hs
    exact LeavesDeleted.recordRepayment (hs.2 l (List.mem_singleton_self l)) auth now x
  | approveLoan js auth now l =>
    apply hdone
    apply Starts.of_everyStep
    intro s hs
    exact LeavesDeleted.approveLoan (hs.2 l (List.mem_singleton_self l)) js auth now
  | disburseLoan js auth now l vaultId =>
    apply hdone
    apply Starts.of_everyStep
    intro s hs
    exact LeavesDeleted.disburseLoan (hs.2 l (List.mem_singleton_self l)) js auth now vaultId
  | runArrearsCheck today =>
    apply (LeavesDeleted.runArrearsCheck today).imp
    exact fun s hs e he => hs.2 _ (List.mem_map_of_mem he)

/-! ## Runs -/

/-- A call.  The last constructor stands for every other endpoint and job. -/
inductive ImportCall
  | operation (op : PortfolioOperation)
  | undo (auth : Auth) (batchId : Id) (now : DateTime)
  | other (p : Handler Unit)

def ImportCall.handler : ImportCall → Handler Unit
  | operation op => op.handler
  | undo auth batchId now => discard (undoBatch auth batchId now)
  | other p => p

section Runs

variable {ι : Type} [DecidableEq ι]

def importPool (calls : ι → ImportCall) (s : Db) : Pool ι Access Db Failure Unit :=
  ⟨fun i => (calls i).handler, s⟩

/-- Every operation of the schedule finds nothing that is deleted when it starts. -/
def FindsLiveRows (calls : ι → ImportCall) (s : Db) (sched : List ι) : Prop :=
  ∀ before i op, before ++ [i] <+: sched → i ∉ before → calls i = .operation op →
    op.FindsNoneDeleted ((importPool calls s).run before).state

/-- No statement of an operation of the schedule changes a row that was deleted when the
operation started, or moves money for it. -/
def LeavesDeletedRows (calls : ι → ImportCall) (s : Db) (sched : List ι) : Prop :=
  ∀ done i op, done ++ [i] <+: sched → calls i = .operation op →
    ((importPool calls s).run done).StepIs
      (LeavesDeleted ((importPool calls s).startOf done i)) i

theorem leavesDeletedRows_of_finds {calls : ι → ImportCall} {s : Db} {sched : List ι}
    (h : FindsLiveRows calls s sched) : LeavesDeletedRows calls s sched := by
  intro done i op hdone hop
  have hstarts : ((importPool calls s).threads i).Starts op.FindsNoneDeleted LeavesDeleted := by
    show (calls i).handler.Starts _ _
    rw [hop]
    exact op.starts
  apply Pool.run_starts hstarts
  rcases (importPool calls s).startOf_cases done i with
    ⟨hfresh, hstart⟩ | ⟨before, after, rfl, hfresh, hstart⟩
  · rw [hstart]
    exact h done i op hdone hfresh hop
  · rw [hstart]
    apply h before i op _ hfresh hop
    apply List.IsPrefix.trans _ hdone
    rw [List.append_assoc]
    exact (List.prefix_append_right_inj before).mpr ⟨after ++ [i], rfl⟩

/-- What a later operation leaves alone is still as it was before. -/
theorem Db.KeepsDeleted.follows {t s u v : Db} (h : s.KeepsDeleted u v) (hs : t.KeepsDeleted t s)
    (hu : t.KeepsDeleted t u) : t.KeepsDeleted t v where
  accounts := fun id row hrow hdeleted ht =>
    h.accounts id row (hs.accounts id row hrow hdeleted ht) hdeleted
      (hu.accounts id row hrow hdeleted ht)
  loans := fun id row hrow hdeleted ht =>
    h.loans id row (hs.loans id row hrow hdeleted ht) hdeleted (hu.loans id row hrow hdeleted ht)
  installments := fun id row hrow hdeleted ht =>
    h.installments id row (hs.installments id row hrow hdeleted ht) hdeleted
      (hu.installments id row hrow hdeleted ht)

/-- In every run whose operations find nothing that is deleted when they start, they leave alone
what is deleted.  So what is deleted at some point stays as it is, as long as only operations run
that start later. -/
theorem undone_imports_inert (calls : ι → ImportCall) (s : Db) (sched : List ι)
    (hlive : FindsLiveRows calls s sched) :
    LeavesDeletedRows calls s sched ∧
      ∀ before after, before ++ after = sched →
        (∀ i ∈ after, i ∉ before ∧ ∃ op, calls i = .operation op) →
          ((importPool calls s).run before).state.KeepsDeleted
            ((importPool calls s).run before).state ((importPool calls s).run sched).state := by
  have hleaves := leavesDeletedRows_of_finds hlive
  refine ⟨hleaves, ?_⟩
  rintro before after rfl hafter
  have hfollows : ∀ (t s : Db) lab u v, LeavesDeleted s lab u v → t.KeepsDeleted t s →
      t.KeepsDeleted t u → t.KeepsDeleted t v := fun _ _ _ _ _ h hs hu => h.1.follows hs hu
  apply Pool.run_keeps (fun t => Db.KeepsDeleted.refl t t) hfollows
  intro xs i hxs
  have hi : i ∈ after := hxs.subset (List.mem_append_right xs (List.mem_singleton_self i))
  obtain ⟨hfresh, op, hop⟩ := hafter i hi
  refine ⟨hfresh, hleaves _ i op ?_ hop⟩
  rw [List.append_assoc]
  exact (List.prefix_append_right_inj before).mpr hxs

end Runs

/-! ## A deposit on an account that has been imported by mistake -/

/-- The teller's ledger, with an account that a batch has brought in and one that has been opened
at the counter. -/
def importedLedger : Db :=
  ((tellerLedger.modify .savingsAccount 1 fun a => { a with importBatchId := some 1 }).insert
    .savingsAccount { institutionId := 1, customerId := 2 }).insert .importBatch
      { institutionId := 1, entityType := .savingsAccount, status := .committed, totalRows := 1,
        createdById := 1 }

/-- The batch is undone, and a deposit is made on an account. -/
def depositAfterUndo (accountId : Id) : Fin 2 → ImportCall :=
  ![.undo ⟨1, 1⟩ 1 4, .operation (.savings (.deposit ⟨1, 1⟩ 5 accountId 50))]

/-- The undo, and then some statements of the deposit. -/
def undoThenDeposit (n : ℕ) : List (Fin 2) := List.replicate 4 0 ++ List.replicate n 1

/-- The deposit starts after the undo. -/
theorem start_of_undoThenDeposit {n : ℕ} {before : List (Fin 2)}
    (h : before ++ [1] <+: undoThenDeposit n) (hfresh : 1 ∉ before) :
    before = List.replicate 4 0 := by
  obtain ⟨rest, hrest⟩ := h
  rcases List.append_eq_append_iff.mp hrest with ⟨zeros, hzeros, -⟩ | ⟨ones, hones, hrest⟩
  · have hone : (1 : Fin 2) ∈ List.replicate 4 0 := by
      rw [hzeros]
      exact List.mem_append_left _ (List.mem_append_right _ (List.mem_singleton_self 1))
    exact absurd (List.eq_of_mem_replicate hone) (by decide)
  · rcases List.eq_nil_or_concat ones with rfl | ⟨ones, last, rfl⟩
    · have hone : (1 : Fin 2) ∈ List.replicate 4 0 ++ [] := by
        rw [← hones]
        exact List.mem_append_right _ (List.mem_singleton_self 1)
      rw [List.append_nil] at hone
      exact absurd (List.eq_of_mem_replicate hone) (by decide)
    · rw [List.concat_eq_append] at hones hrest
      rw [← List.append_assoc] at hones
      have hbefore := (List.append_inj' hones rfl).1
      cases ones with
      | nil => rwa [List.append_nil] at hbefore
      | cons first ones =>
        have hfirst : first ∈ List.replicate n 1 := by
          rw [hrest]
          exact List.mem_append_left _ (List.mem_append_left _ (List.mem_cons_self ..))
        rw [List.eq_of_mem_replicate hfirst] at hbefore
        rw [hbefore] at hfresh
        exact absurd (List.mem_append_right _ (List.mem_cons_self ..)) hfresh

theorem findsLiveRows_undoThenDeposit {accountId : Id} (n : ℕ)
    (h : (PortfolioOperation.savings (.deposit ⟨1, 1⟩ 5 accountId 50)).FindsNoneDeleted
      ((importPool (depositAfterUndo accountId) importedLedger).run (List.replicate 4 0)).state) :
    FindsLiveRows (depositAfterUndo accountId) importedLedger (undoThenDeposit n) := by
  intro before i op hbefore hfresh hop
  match i with
  | 0 => exact absurd hop nofun
  | 1 =>
    rw [start_of_undoThenDeposit hbefore hfresh, ← ImportCall.operation.inj hop]
    exact h

/-- The deposit is made on the account that has been opened at the counter. -/
theorem undone_imports_inert_counter :
    LeavesDeletedRows (depositAfterUndo 2) importedLedger (undoThenDeposit 8) ∧
      ∀ before after, before ++ after = undoThenDeposit 8 →
        (∀ i ∈ after, i ∉ before ∧ ∃ op, depositAfterUndo 2 i = .operation op) →
          ((importPool (depositAfterUndo 2) importedLedger).run before).state.KeepsDeleted
            ((importPool (depositAfterUndo 2) importedLedger).run before).state
            ((importPool (depositAfterUndo 2) importedLedger).run (undoThenDeposit 8)).state :=
  undone_imports_inert (depositAfterUndo 2) importedLedger (undoThenDeposit 8)
    (findsLiveRows_undoThenDeposit 8 (by decide +kernel))

/-- The ledger at some point of the deposit on the account that has been brought in. -/
def undoneLedger (n : ℕ) : Db :=
  ((importPool (depositAfterUndo 1) importedLedger).run (undoThenDeposit n)).state

/-- The account is deleted, and the deposit changes its balance and the balance of the cash. -/
theorem deposit_on_undone :
    (∃ a ∈ (undoneLedger 0).find? .savingsAccount 1, a.deletedAt = some 4 ∧ a.balance = 10000) ∧
      (∃ a ∈ (undoneLedger 7).find? .savingsAccount 1, a.balance = 15000) ∧
      (undoneLedger 7).glBalance 1 ≠ (undoneLedger 0).glBalance 1 ∧
      ¬ LeavesDeletedRows (depositAfterUndo 1) importedLedger (undoThenDeposit 7) := by
  refine ⟨by decide +kernel, by decide +kernel, by decide +kernel, fun hleaves => ?_⟩
  have hstep := (hleaves (undoThenDeposit 6) 1 _ (List.prefix_refl _) rfl).step
  have hnext : (((importPool (depositAfterUndo 1) importedLedger).run (undoThenDeposit 6)).step
      1).state = undoneLedger 7 := rfl
  have hread : (undoneLedger 6).find? .savingsAccount 1 = (undoneLedger 0).find? .savingsAccount 1 :=
    rfl
  have hbalances : ((undoneLedger 7).find? .savingsAccount 1).map (fun a => a.balance) ≠
      ((undoneLedger 6).find? .savingsAccount 1).map fun a => a.balance := by decide +kernel
  have hdeleted : (undoneLedger 0).AccountDeleted 1 := by decide +kernel
  rw [hnext] at hstep
  rcases hstep with hsame | ⟨lab, hkept, -⟩
  · apply hbalances
    rw [hsame]
    rfl
  · obtain ⟨a, ha, hset⟩ := hdeleted
    have hstart : (importPool (depositAfterUndo 1) importedLedger).startOf (undoThenDeposit 6) 1 =
        undoneLedger 0 := rfl
    rw [hstart] at hkept
    have hfinds := hkept.accounts 1 a ha hset (hread.trans ha)
    apply hbalances
    rw [hfinds, hread, ha]

end NexusEfos
