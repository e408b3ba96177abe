/-
The operations that move customer balances, run at the same time.
-/
import NexusEfos.Savings.Steps

namespace NexusEfos

/-- Continue with nothing. -/
def discard {α : Type} (p : Handler α) : Handler Unit := p >>= fun _ => pure ()

theorem KeepsBooks.discard {α : Type} {allowed : BooksKind → Prop} {p : Handler α}
    (hp : KeepsBooks allowed p) : KeepsBooks allowed (NexusEfos.discard p) :=
  fun s => (hp s).bind (fun _ _ _ h => h) fun _ _ _ h => h

/-- The operations that move customer balances. -/
inductive SavingsOperation
  | deposit (auth : Auth) (now : DateTime) (accountId : Id) (amount : ℚ)
  | withdraw (auth : Auth) (now : DateTime) (accountId : Id) (amount : ℚ)
  | chargeFee (auth : Auth) (now : DateTime) (accountId feeTypeId : Id)
  | waiveFee (auth : Auth) (now : DateTime) (chargeId : Id) (reason : Option String)
  | runStandingInstructions (now : DateTime)
  | postInterest (auth : Auth) (now : DateTime) (accountId : Id)
  | postAllInterest (now : DateTime) (institutionId : Id) (postedById : Option Id)
    (batchId : Option String)
  | reverseInterest (auth : Auth) (now : DateTime) (postingId : Id) (reason : String)
  | recordCollection (auth : Auth) (now : DateTime) (body : RecordCollection)
  | reverseCollection (auth : Auth) (now : DateTime) (collectionId : Id) (reason : String)

/-- The code an operation runs. -/
def SavingsOperation.handler : SavingsOperation → Handler Unit
  | deposit auth now a x => discard (NexusEfos.deposit auth now a x)
  | withdraw auth now a x => discard (NexusEfos.withdraw auth now a x)
  | chargeFee auth now a feeTypeId => discard (NexusEfos.chargeFee auth now a feeTypeId)
  | waiveFee auth now chargeId reason => discard (NexusEfos.waiveFee auth now chargeId reason)
  | runStandingInstructions now => NexusEfos.runStandingInstructions now
  | postInterest auth now a => discard (NexusEfos.postInterest auth now a)
  | postAllInterest now institutionId postedById batchId =>
    discard (postAllForInstitution now institutionId postedById batchId)
  | reverseInterest auth now postingId reason =>
    NexusEfos.reverseInterest auth now postingId reason
  | recordCollection auth now body => discard (NexusEfos.recordCollection auth now body)
  | reverseCollection auth now collectionId reason =>
    discard (NexusEfos.reverseCollection auth now collectionId reason)

/-- The ways in which an operation moves money. -/
def SavingsOperation.Does : SavingsOperation → BooksKind → Prop
  | deposit _ _ _ x, kind => kind = .deposited x
  | withdraw _ _ _ x, kind => kind = .withdrew x
  | recordCollection _ _ body, kind => kind = .deposited body.amount ∨ kind = .repaid body.amount
  | chargeFee .., kind | waiveFee .., kind | runStandingInstructions _, kind
  | postInterest .., kind | postAllInterest .., kind | reverseInterest .., kind
  | reverseCollection .., kind => kind = .overwrote

theorem SavingsOperation.keepsBooks {allowed : BooksKind → Prop} (op : SavingsOperation)
    (h : ∀ kind, op.Does kind → allowed kind) : KeepsBooks allowed op.handler := by
  cases op with
  | deposit auth now a x =>
    exact KeepsBooks.discard (deposit_keepsBooks auth now a x (h _ rfl))
  | withdraw auth now a x =>
    exact KeepsBooks.discard (withdraw_keepsBooks auth now a x (h _ rfl))
  | chargeFee auth now a feeTypeId =>
    exact KeepsBooks.discard (chargeFee_keepsBooks auth now a feeTypeId (h _ rfl))
  | waiveFee auth now chargeId reason =>
    exact KeepsBooks.discard (waiveFee_keepsBooks auth now chargeId reason (h _ rfl))
  | runStandingInstructions now =>
    exact runStandingInstructions_keepsBooks now (h _ rfl)
  | postInterest auth now a =>
    exact KeepsBooks.discard (postInterest_keepsBooks auth now a (h _ rfl))
  | postAllInterest now institutionId postedById batchId =>
    exact KeepsBooks.discard
      (postAllForInstitution_keepsBooks now institutionId postedById batchId (h _ rfl))
  | reverseInterest auth now postingId reason =>
    exact reverseInterest_keepsBooks auth now postingId reason (h _ rfl)
  | recordCollection auth now body =>
    exact KeepsBooks.discard (recordCollection_keepsBooks auth now body (fun _ => h _ (.inl rfl))
      fun _ => h _ (.inr rfl))
  | reverseCollection auth now collectionId reason =>
    exact KeepsBooks.discard
      (reverseCollection_keepsBooks auth now collectionId reason (h _ rfl))

/-- Operations that run at the same time. -/
def operationPool {ι : Type} (ops : ι → SavingsOperation) (s : Db) :
    Pool ι Access Db Failure Unit :=
  ⟨fun i => (ops i).handler, s⟩

theorem operationPool_follows {ι : Type} (ops : ι → SavingsOperation) (s : Db) :
    (operationPool ops s).Follows (booksProtocol fun _ => True) (fun d _ => d = 0) fun _ => 0 :=
  fun i => (ops i).keepsBooks (fun _ _ => trivial) s

end NexusEfos
