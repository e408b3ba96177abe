/-
What the statements of the endpoints that move money are.

Each of them reads, moves the money in one transaction with its journal, and leaves a record.
So whatever is to be shown of its statements has to be shown of what only reads or leaves an
audit entry, and of the transaction.
-/
import NexusEfos.Savings.Writes

namespace NexusEfos

open Proc

section Movements

variable {D : Access → Db → Db → Prop}

/-- The label of a transaction that posts some lines. -/
def postingOf (auth : Auth) (now : DateTime) (lines : List JournalLineInput) : Option Posting :=
  some ⟨auth.institutionId, now, lines.map fun l => l.accountId⟩

theorem deposit_everyStep
    (hrest : ∀ {α : Type} {p : Handler α}, Writes [.auditLog] p → p.EveryStep D) (auth : Auth)
    (now : DateTime) (a : Id) (x : ℚ)
    (hmove : ∀ description lines,
      (Proc.transaction { increments := [(a, x)], posting := postingOf auth now lines }
        (depositInTx auth now a x description lines)).EveryStep D) :
    (deposit auth now a x).EveryStep D := by
  refine (EveryStep.require _ _).bind fun _ => (hrest (.query _)).bind fun found => ?_
  refine (EveryStep.orFail _ _).bind fun account => ?_
  refine (hrest ((Writes.query _).bind fun _ => .pure _)).bind fun message => ?_
  refine (hrest (writes_refuse _)).bind fun _ => (hrest (.query _)).bind fun mappings => ?_
  refine (EveryStep.orFail _ _).bind fun accounts => ?_
  refine (hrest (.requirePostablePeriod _ _)).bind fun _ => ?_
  refine (hrest (.findUniqueOrThrow _ _)).bind fun cash => ?_
  refine (hrest (.findUniqueOrThrow _ _)).bind fun liability => ?_
  refine (EveryStep.require _ _).bind fun _ => (hmove _ _).bind fun _ => ?_
  exact hrest (writes_log (List.mem_singleton_self _) _ _)

theorem withdraw_everyStep
    (hrest : ∀ {α : Type} {p : Handler α}, Writes [.auditLog] p → p.EveryStep D) (auth : Auth)
    (now : DateTime) (a : Id) (x : ℚ)
    (hmove : ∀ description lines,
      (Proc.transaction { increments := [(a, -x)], posting := postingOf auth now lines }
        (withdrawInTx auth now a x description lines)).EveryStep D) :
    (withdraw auth now a x).EveryStep D := by
  refine (EveryStep.require _ _).bind fun _ => (hrest (.query _)).bind fun found => ?_
  refine (EveryStep.orFail _ _).bind fun account => ?_
  refine (hrest ((Writes.query _).bind fun _ => .pure _)).bind fun message => ?_
  refine (hrest (writes_refuse _)).bind fun _ => (hrest (.query _)).bind fun mappings => ?_
  refine (EveryStep.orFail _ _).bind fun accounts => ?_
  refine (hrest (.requirePostablePeriod _ _)).bind fun _ => ?_
  refine (hrest (.findUniqueOrThrow _ _)).bind fun cash => ?_
  refine (hrest (.findUniqueOrThrow _ _)).bind fun liability => ?_
  refine (EveryStep.require _ _).bind fun _ => (hmove _ _).bind fun _ => ?_
  exact hrest (writes_log (List.mem_singleton_self _) _ _)

theorem recordRepayment_everyStep
    (hrest : ∀ {α : Type} {p : Handler α}, Writes [.auditLog] p → p.EveryStep D) (auth : Auth)
    (now : DateTime) (l : Id) (x : ℚ)
    (hmove : ∀ description lines,
      (Proc.transaction { loanMove := some (l, .repay x), posting := postingOf auth now lines }
        (repayInTx auth now l x description lines)).EveryStep D) :
    (recordRepayment auth now l x).EveryStep D := by
  refine (EveryStep.require _ _).bind fun _ => (hrest (.query _)).bind fun found => ?_
  refine (EveryStep.orFail _ _).bind fun loan => (hrest (.query _)).bind fun mappings => ?_
  refine (EveryStep.orFail _ _).bind fun accounts => ?_
  refine (hrest (.requirePostablePeriod _ _)).bind fun _ => ?_
  refine (hrest (.findUniqueOrThrow _ _)).bind fun receivable => ?_
  refine (hrest (.findUniqueOrThrow _ _)).bind fun cash => ?_
  refine (EveryStep.require _ _).bind fun _ => (hmove _ _).bind fun _ => ?_
  exact hrest (writes_log (List.mem_singleton_self _) _ _)

/-- A collection reads, moves the money in the branch of its type, and is created. -/
theorem recordCollection_moves
    (hrest : ∀ {α : Type} {p : Handler α}, Writes [.auditLog] p → p.EveryStep D) (auth : Auth)
    (now : DateTime) (body : RecordCollection)
    (hdeposit : body.type = .savingsDeposit → ∀ description lines,
      (Proc.transaction
        { increments := [(body.targetId, body.amount)], posting := postingOf auth now lines }
        (depositInTx auth now body.targetId body.amount description lines)).EveryStep D)
    (hrepay : body.type = .loanRepayment → ∀ description lines,
      (Proc.transaction
        { loanMove := some (body.targetId, .repay body.amount),
          posting := postingOf auth now lines }
        (repayInTx auth now body.targetId body.amount description lines)).EveryStep D)
    (hcreate : ∀ row, (createAs { collects := some (body.collectorId, now) }
      .collectionTransaction row).EveryStep D) :
    (recordCollection auth now body).EveryStep D := by
  refine (EveryStep.require _ _).bind fun _ => (hrest (.query _)).bind fun found => ?_
  refine (EveryStep.orFail _ _).bind fun collector => (EveryStep.require _ _).bind fun _ => ?_
  refine (hrest ((Writes.query _).bind fun _ => .pure _)).bind fun duplicate => ?_
  refine (EveryStep.require _ _).bind fun _ => ?_
  refine (hrest (.requirePostablePeriod _ _)).bind fun _ => ?_
  cases htype : body.type with
  | savingsDeposit =>
    have hcollect : (collectSavingsDeposit auth now body).EveryStep D := by
      refine (hrest (.query _)).bind fun found => (EveryStep.orFail _ _).bind fun account => ?_
      refine (hrest (.query _)).bind fun mappings => (EveryStep.orFail _ _).bind fun accounts => ?_
      refine (hrest (.findUniqueOrThrow _ _)).bind fun custody => ?_
      refine (hrest (.findUniqueOrThrow _ _)).bind fun liability => ?_
      refine (EveryStep.require _ _).bind fun _ => ?_
      exact (hdeposit htype _ _).bind fun _ => trivial
    refine hcollect.bind fun _ => (hcreate _).bind fun _ => ?_
    exact hrest (writes_log (List.mem_singleton_self _) _ _)
  | loanRepayment =>
    have hcollect : (collectLoanRepayment auth now body).EveryStep D := by
      refine (hrest (.query _)).bind fun found => (EveryStep.orFail _ _).bind fun loan => ?_
      refine (hrest (.query _)).bind fun mappings => (EveryStep.orFail _ _).bind fun accounts => ?_
      refine (hrest (.findUniqueOrThrow _ _)).bind fun custody => ?_
      refine (hrest (.findUniqueOrThrow _ _)).bind fun receivable => ?_
      refine (EveryStep.require _ _).bind fun _ => ?_
      exact (hrepay htype _ _).bind fun _ => trivial
    refine hcollect.bind fun _ => (hcreate _).bind fun _ => ?_
    exact hrest (writes_log (List.mem_singleton_self _) _ _)

end Movements

end NexusEfos
