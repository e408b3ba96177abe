/-
The scheduled run of the standing instructions: `lib/scheduler.ts`.
-/
import NexusEfos.Savings.Transactions

namespace NexusEfos

/-- The transaction of an internal transfer. -/
def transferInTx (now : DateTime) (si : StandingInstruction) (sourceId destId : Id)
    (newSourceBalance newDestBalance : ℚ) : Handler Unit := do
  let _ ← update .savingsAccount sourceId (SavingsAccount.setBalance newSourceBalance)
  let _ ← update .savingsAccount destId (SavingsAccount.setBalance newDestBalance)
  let _ ← create .savingsTransaction
    { accountId := sourceId, type := .withdrawal, amount := si.amount,
      balanceAfter := ofNumber newSourceBalance, recordedById := some si.createdById,
      createdAt := now }
  let _ ← create .savingsTransaction
    { accountId := destId, type := .deposit, amount := si.amount,
      balanceAfter := ofNumber newDestBalance, recordedById := some si.createdById,
      createdAt := now }

/-- The transaction of a loan repayment: the repayment is recorded and no
installment is touched. -/
def repayLoanInTx (now : DateTime) (si : StandingInstruction) (loanId : Id) (newSourceBalance : ℚ) :
    Handler Unit := do
  setBalanceInTx now si.sourceAccountId .withdrawal (toNumber si.amount) newSourceBalance
    (some si.createdById)
  let _ ← create .loanRepayment
    { loanId, amount := si.amount, recordedById := some si.createdById }

/-- Count a failed execution against the instruction and record it. -/
def failInsufficient (siId : Id) (si : StandingInstruction) (failureReason : String) :
    Handler Unit := do
  let consecutiveFailures := si.consecutiveFailures + 1
  let _ ← updateAs { instruction := some (.countFailure siId si.consecutiveFailures) }
    .standingInstruction siId fun i =>
    { i with consecutiveFailures,
             status := if si.maxRetries ≤ consecutiveFailures then .suspended else .active }
  let _ ← createAs { instruction := some (.recordFailure siId true) }
    .standingInstructionExecution
    { instructionId := siId, status := .failed, amount := si.amount,
      failureReason := some failureReason }

/-- Record a successful execution and set the next date. -/
def recordExecution (siId : Id) (si : StandingInstruction) : Handler Unit := do
  let _ ← createAs { instruction := some (.recordSuccess siId) } .standingInstructionExecution
    { instructionId := siId, status := .success, amount := si.amount }
  let _ ← updateAs { advances := some (.standingInstruction siId, si.nextExecutionDate),
                     instruction := some (.reset siId) }
    .standingInstruction siId fun i =>
    { i with nextExecutionDate :=
               nextExecutionDate si.nextExecutionDate si.frequency si.customIntervalDays,
             consecutiveFailures := 0 }

/-- One turn of the loop, with the source account it has read. -/
def executeFrom (now : DateTime) (siId : Id) (si : StandingInstruction) (source : SavingsAccount) :
    Handler Unit := do
  let newSourceBalance := toNumber source.balance - toNumber si.amount
  let sourceWrite : Overwrite := ⟨si.sourceAccountId, source.balance, -si.amount⟩
  let executes := some (ScheduledItem.standingInstruction siId, si.nextExecutionDate)
  match si.type, si.destinationAccountId, si.destinationLoanId with
  | .internalTransfer, some destId, _ =>
    match ← findUnique .savingsAccount destId with
    | none =>
      let _ ← createAs { instruction := some (.recordFailure siId false) }
        .standingInstructionExecution
        { instructionId := siId, status := .failed, amount := si.amount,
          failureReason := some "Destination account not found" }
    | some dest =>
      let newDestBalance := toNumber dest.balance + toNumber si.amount
      Proc.transaction
        { overwrites := [sourceWrite, ⟨destId, dest.balance, si.amount⟩], executes }
        (transferInTx now si si.sourceAccountId destId newSourceBalance newDestBalance)
      recordExecution siId si
  | .loanRepayment, _, some loanId =>
    Proc.transaction
      { overwrites := [sourceWrite], unallocated := [(loanId, si.amount)], executes }
      (repayLoanInTx now si loanId newSourceBalance)
    recordExecution siId si
  | .scheduledWithdrawal, _, _ =>
    Proc.transaction { overwrites := [sourceWrite], executes }
      (setBalanceInTx now si.sourceAccountId .withdrawal (toNumber si.amount) newSourceBalance
        (some si.createdById))
    recordExecution siId si
  | _, _, _ => recordExecution siId si

/-- One turn of the loop. -/
def executeInstruction (now : DateTime) (siId : Id) (si : StandingInstruction) : Handler Unit := do
  match ← findUnique .savingsAccount si.sourceAccountId with
  | none => failInsufficient siId si "Source account not found"
  | some source =>
    if source.balance < si.amount then failInsufficient siId si "Insufficient balance"
    else executeFrom now siId si source

def runStandingInstructions (now : DateTime) : Handler Unit := do
  let due ← findMany .standingInstruction fun _ si =>
    si.status = .active ∧ si.nextExecutionDate ≤ now
  Proc.forEach due fun si => executeInstruction now si.1 si.2

end NexusEfos
