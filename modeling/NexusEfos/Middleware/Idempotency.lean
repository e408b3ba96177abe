/-
Requests that carry an idempotency key: `middleware/idempotency.ts`, and the endpoints
it is put before.

The key is claimed by a row under a unique constraint.  The request that wins the claim
goes on to the handler, and its answer is stored in the row after it has been sent.  A
request that loses the claim is answered from the row.

What matters here is not in the database alone, so a `World` also records which
handlers have been called and which answers have been sent.
-/
import NexusEfos.Collections.Transactions
import NexusEfos.Loans.Lifecycle
import NexusEfos.Operations.Cash

namespace NexusEfos

/-! ## The endpoints -/

/-- A call of one of the endpoints. -/
inductive EndpointCall
  | cashEntry (auth : Auth) (now : DateTime) (vaultId : Id) (type : CashEntryType) (amount : ℚ)
      (notes : Option String)
  | collection (auth : Auth) (now : DateTime) (body : RecordCollection)
  | disburse (js : Js) (auth : Auth) (now : DateTime) (loanId : Id) (vaultId : Option Id)
  | repayment (auth : Auth) (now : DateTime) (loanId : Id) (amount : ℚ)
  | deposit (auth : Auth) (now : DateTime) (accountId : Id) (amount : ℚ)
  | withdraw (auth : Auth) (now : DateTime) (accountId : Id) (amount : ℚ)

/-- What an endpoint answers with. -/
inductive EndpointResult
  | entry (id : Id)
  | collection (id : Id)
  | loan (updated : Loan)
  | repayment (id : Id) (loanClosed : Bool)
  | transaction (account : SavingsAccount) (id : Id)

def EndpointCall.handler : EndpointCall → Handler EndpointResult
  | cashEntry auth now vaultId type amount notes => do
    let id ← recordCashEntry auth now vaultId type amount notes
    return .entry id
  | collection auth now body => do
    let id ← recordCollection auth now body
    return .collection id
  | disburse js auth now loanId vaultId => do
    let updated ← disburseLoan js auth now loanId vaultId
    return .loan updated
  | repayment auth now loanId amount => do
    let (id, loanClosed) ← recordRepayment auth now loanId amount
    return .repayment id loanClosed
  | deposit auth now accountId amount => do
    let (account, id) ← NexusEfos.deposit auth now accountId amount
    return .transaction account id
  | withdraw auth now accountId amount => do
    let (account, id) ← NexusEfos.withdraw auth now accountId amount
    return .transaction account id

/-- The status of an answer to a call that succeeded. -/
def EndpointResult.status : EndpointResult → ℕ
  | loan _ => 200
  | _ => 201

/-! ## Requests and answers -/

/-- What distinguishes the claims. -/
structure ClaimKey where
  institutionId : Id
  userId : Id
  endpoint : String
  key : String
  deriving DecidableEq

def IdempotencyKey.claimKey (k : IdempotencyKey) : ClaimKey :=
  ⟨k.institutionId, k.userId, k.endpoint, k.key⟩

/-- The status and the body of an answer. -/
structure Reply where
  status : ℕ
  body : String
  deriving DecidableEq

/-- The answer that is stored in a claim. -/
def IdempotencyKey.response (k : IdempotencyKey) : Option Reply :=
  k.responseStatus.map fun status => ⟨status, k.responseBody.getD "null"⟩

/-- A request, with the call its endpoint makes of it. -/
structure EndpointRequest (β : Type) where
  auth : Auth
  now : DateTime
  requestId : String
  originalUrl : String
  idempotencyKey : Option String
  body : β
  call : EndpointCall

/-- The texts the answers consist of: the encoding of a result and of an error, the report
of a schema on a body it refuses, and the answer to an unexpected error. -/
structure ReplyTexts (β : Type) where
  result : EndpointResult → String
  error : String → String
  report : β → String
  internalError : String → String

namespace ReplyTexts

variable {β : Type} (texts : ReplyTexts β)

/-- The answer of the error handler. -/
def internal (request : EndpointRequest β) : Reply := ⟨500, texts.internalError request.requestId⟩

/-- The answer to what a handler comes to. -/
def reply (request : EndpointRequest β) : Except Failure EndpointResult → Reply
  | .ok result => ⟨result.status, texts.result result⟩
  | .error (.http status error) => ⟨status, texts.error error⟩
  | .error .invalid => ⟨400, texts.report request.body⟩
  | .error (.prisma _) | .error (.thrown _) => texts.internal request

def differentBody : Reply :=
  ⟨409, texts.error "This idempotency key was already used for a request with a different body — use a new key for a genuinely different request."⟩

def inProgress : Reply :=
  ⟨409, texts.error "A request with this idempotency key is already in progress."⟩

end ReplyTexts

/-! ## The statements -/

/-- The database, the requests whose handler has been called, and the answers that have
been sent. -/
structure World (ι : Type) where
  db : Db
  invoked : List ι := []
  replies : List (ι × Reply) := []

def World.setDb {ι : Type} (s : Db) (w : World ι) : World ι := { w with db := s }

/-- The code that serves a request.  No error goes beyond it. -/
abbrev Service (ι : Type) (α : Type) := Proc Access (World ι) Empty α

section Statements

variable {ι α : Type}

def onDb (p : Handler α) : Service ι (Except Failure α) := p.within World.db World.setDb

def invoke (i : ι) : Service ι Unit :=
  Proc.exec {} fun w => ((), { w with invoked := w.invoked ++ [i] })

def send (i : ι) (reply : Reply) : Service ι Unit :=
  Proc.exec {} fun w => ((), { w with replies := w.replies ++ [(i, reply)] })

end Statements

/-- `idempotencyKey.create`, under the unique constraint. -/
def createClaim (row : IdempotencyKey) : Handler Id :=
  Proc.attempt {} fun s =>
    if row.claimKey ∈ (s.table .idempotencyKey).values.map IdempotencyKey.claimKey then
      (.error uniqueViolation, s)
    else (.ok (s.nextId .idempotencyKey), s.insert .idempotencyKey row)

def findClaim (key : ClaimKey) : Handler (Option (Id × IdempotencyKey)) :=
  findFirst .idempotencyKey fun _ k => k.claimKey = key

def IdempotencyKey.complete (reply : Reply) (now : DateTime) (k : IdempotencyKey) :
    IdempotencyKey :=
  { k with responseStatus := some reply.status, responseBody := some reply.body,
           completedAt := some now }

/-! ## The middleware -/

section Middleware

variable {ι β : Type} (sha256 : β → String) (texts : ReplyTexts β)

/-- The claim a request makes, if it carries a key. -/
def EndpointRequest.claimKey? (request : EndpointRequest β) : Option ClaimKey :=
  (request.idempotencyKey.filter fun key => key ≠ "").map fun key =>
    ⟨request.auth.institutionId, request.auth.userId, request.originalUrl, key⟩

def EndpointRequest.claimRow (request : EndpointRequest β) (key : ClaimKey) : IdempotencyKey :=
  { institutionId := key.institutionId, userId := key.userId, endpoint := key.endpoint,
    key := key.key, requestHash := sha256 request.body }

/-- Store the answer in the claim, if there is one.  An error is only logged. -/
def storeResponse (request : EndpointRequest β) (claim : Option Id) (reply : Reply) :
    Service ι Unit :=
  match claim with
  | some id => do
    let _ ← onDb (update .idempotencyKey id (.complete reply request.now))
  | none => pure ()

/-- What follows the handler. -/
def finish (i : ι) (request : EndpointRequest β) (claim : Option Id)
    (result : Except Failure EndpointResult) : Service ι Unit := do
  let reply := texts.reply request result
  send i reply
  storeResponse request claim reply

/-- Go on to the handler. -/
def next (i : ι) (request : EndpointRequest β) (claim : Option Id) : Service ι Unit := do
  invoke i
  let result ← onDb request.call.handler
  finish texts i request claim result

/-- Answer from the claim of another request. -/
def answerFrom (i : ι) (request : EndpointRequest β)
    (found : Except Failure (Option (Id × IdempotencyKey))) : Service ι Unit :=
  match found with
  | .error _ | .ok none => send i (texts.internal request)
  | .ok (some (_, existing)) =>
    if existing.requestHash ≠ sha256 request.body then send i texts.differentBody
    else
      match existing.response with
      | none => send i texts.inProgress
      | some reply => send i reply

def idempotent (i : ι) (request : EndpointRequest β) : Service ι Unit := do
  match request.claimKey? with
  | none => next texts i request none
  | some key =>
    match ← onDb (createClaim (request.claimRow sha256 key)) with
    | .ok id => next texts i request (some id)
    | .error err =>
      if err ≠ uniqueViolation then send i (texts.internal request)
      else
        let found ← onDb (findClaim key)
        answerFrom sha256 texts i request found

end Middleware

end NexusEfos
