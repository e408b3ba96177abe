/-
A request that is repeated is served once.

Any number of requests run at the same time, with their claims, handlers and stored
answers interleaved in any order.  For every key there is one request whose handler is
called; an answer that is not a conflict is the answer of that call, and a request with
another body gets the conflict that says so (`served_once`).
-/
import NexusEfos.Approvals.Writes
import NexusEfos.Loans.LifecycleRuns
import NexusEfos.Middleware.Idempotency
import NexusEfos.Operations.CashCustody
import NexusEfos.Savings.Steps

namespace NexusEfos

/-! ## The handlers leave the claims alone -/

section Handlers

/-- The table of the claims. -/
def claimTables : List Model := [.idempotencyKey]

theorem quiet_cashEntry (auth : Auth) (now : DateTime) (vaultId : Id) (type : CashEntryType)
    (amount : ℚ) (notes : Option String) :
    Quiet claimTables (recordCashEntry auth now vaultId type amount notes) := by
  refine (Quiet.require _ _).bind fun _ => (Quiet.query _).bind fun _ => ?_
  refine (Quiet.orFail _ _).bind fun vault => (Quiet.require _ _).bind fun _ => ?_
  refine (Quiet.query _).bind fun _ => (Quiet.orFail _ _).bind fun accounts => ?_
  refine (Quiet.requirePostablePeriod _ _).bind fun _ => ?_
  refine (Quiet.findUniqueOrThrow _ _).bind fun _ => (Quiet.findUniqueOrThrow _ _).bind fun _ => ?_
  refine (Quiet.require _ _).bind fun _ => ?_
  have hmove : Quiet claimTables (moveVault vaultId type amount) := by
    cases type with
    | receipt => exact Quiet.update (by decide) _ _
    | withdrawal =>
      refine (Quiet.updateGuarded (by decide) _ _ _).bind fun _ => (Quiet.require _ _).bind fun _ => ?_
      exact Quiet.findUniqueOrThrow _ _
  have hentry : ∀ description lines, Quiet claimTables
      (cashEntryInTx auth now vaultId type amount notes description lines) := by
    intro description lines
    refine hmove.bind fun _ => (Quiet.create (by decide) _).bind fun _ => ?_
    exact (Quiet.postJournal (by decide) (by decide) _ _ _ _).bind fun _ => .pure _
  refine (Quiet.transaction _ (hentry _ _)).bind fun _ => ?_
  exact (Quiet.create (by decide) _).bind fun _ => .pure _

theorem quiet_disburseLoan (js : Js) (auth : Auth) (now : DateTime) (loanId : Id)
    (vaultId : Option Id) : Quiet claimTables (disburseLoan js auth now loanId vaultId) := by
  refine (Quiet.orFail _ _).bind fun vaultId => (Quiet.query _).bind fun _ => ?_
  refine (Quiet.orFail _ _).bind fun loan => (Quiet.require _ _).bind fun _ => ?_
  refine (Quiet.query _).bind fun _ => (Quiet.orFail _ _).bind fun _ => ?_
  refine (Quiet.require _ _).bind fun _ => (Quiet.query _).bind fun _ => ?_
  refine (Quiet.require _ _).bind fun _ => (Quiet.query _).bind fun _ => ?_
  refine (Quiet.matchRules _ _ _ _ _).bind fun matched => ?_
  refine (Quiet.requireUnblocked _ _).bind fun _ => (Quiet.query _).bind fun _ => ?_
  refine (Quiet.orFail _ _).bind fun accounts => (Quiet.requirePostablePeriod _ _).bind fun _ => ?_
  refine (Quiet.findUniqueOrThrow _ _).bind fun _ => (Quiet.findUniqueOrThrow _ _).bind fun _ => ?_
  refine (Quiet.require _ _).bind fun _ => ?_
  have hpay : ∀ lines schedule, Quiet claimTables
      (disburseInTx auth now loanId vaultId loan.principal lines schedule) := by
    intro lines schedule
    refine (Quiet.updateGuarded (by decide) _ _ _).bind fun _ => (Quiet.require _ _).bind fun _ => ?_
    refine (Quiet.findUniqueOrThrow _ _).bind fun _ => (Quiet.create (by decide) _).bind fun _ => ?_
    refine (Quiet.postJournal (by decide) (by decide) _ _ _ _).bind fun _ => ?_
    refine (Quiet.update (by decide) _ _).bind fun _ => ?_
    exact (Quiet.createInstallments (by decide) _ _).bind fun _ => .pure _
  refine (Quiet.transaction _ (hpay _ _)).bind fun _ => (Quiet.create (by decide) _).bind fun _ => ?_
  exact (Quiet.executeMatchedRules (by decide) (by decide) _ _ _ _ _).bind fun _ => .pure _

theorem quiet_recordRepayment (auth : Auth) (now : DateTime) (loanId : Id) (amount : ℚ) :
    Quiet claimTables (recordRepayment auth now loanId amount) := by
  refine (Quiet.require _ _).bind fun _ => (Quiet.query _).bind fun _ => ?_
  refine (Quiet.orFail _ _).bind fun _ => (Quiet.query _).bind fun _ => ?_
  refine (Quiet.orFail _ _).bind fun accounts => (Quiet.requirePostablePeriod _ _).bind fun _ => ?_
  refine (Quiet.findUniqueOrThrow _ _).bind fun _ => (Quiet.findUniqueOrThrow _ _).bind fun _ => ?_
  refine (Quiet.require _ _).bind fun _ => ?_
  refine (Quiet.transaction _ ((writes_repayInTx (fun _ hm => hm) ..).quiet (by decide))).bind fun _ => ?_
  exact (Quiet.create (by decide) _).bind fun _ => .pure _

theorem EndpointCall.quiet (call : EndpointCall) : Quiet claimTables call.handler := by
  cases call with
  | cashEntry auth now vaultId type amount notes =>
    exact (quiet_cashEntry auth now vaultId type amount notes).bind fun _ => .pure _
  | collection auth now body => exact ((writes_recordCollection auth now body).quiet (by decide)).bind fun _ => .pure _
  | disburse js auth now loanId vaultId =>
    exact (quiet_disburseLoan js auth now loanId vaultId).bind fun _ => .pure _
  | repayment auth now loanId amount =>
    exact (quiet_recordRepayment auth now loanId amount).bind fun _ => .pure _
  | deposit auth now accountId amount =>
    exact ((writes_deposit (fun _ hm => hm) auth now accountId amount).quiet (by decide)).bind fun _ => .pure _
  | withdraw auth now accountId amount =>
    exact ((writes_withdraw (fun _ hm => hm) auth now accountId amount).quiet (by decide)).bind fun _ => .pure _

end Handlers

/-! ## Where a request stands -/

/-- How far a request has come.  `claim` is the row of the claim it has won, if it carries a
key. -/
inductive Phase
  | arrived
  | refused
  | judged (reply : Reply)
  | answered (reply : Reply)
  | won (claim : Option Id)
  | handling (claim : Option Id)
  | sent (claim : Option Id) (reply : Reply)
  | stored (claim : Id) (reply : Reply)

namespace Phase

def claim : Phase → Option Id
  | won claim | handling claim | sent claim _ => claim
  | stored claim _ => some claim
  | arrived | refused | judged _ | answered _ => none

/-- The handler has been called. -/
def Called : Phase → Prop
  | handling _ | sent .. | stored .. => True
  | arrived | refused | judged _ | answered _ | won _ => False

/-- The answer that has been sent. -/
def reply : Phase → Option Reply
  | answered reply | sent _ reply | stored _ reply => some reply
  | arrived | refused | judged _ | won _ | handling _ => none

/-- The answer that is in the claim. -/
def response : Phase → Option Reply
  | stored _ reply => some reply
  | arrived | refused | judged _ | answered _ | won _ | handling _ | sent .. => none

end Phase

section Requests

variable {ι β : Type} {sha256 : β → String} {texts : ReplyTexts β} {i : ι}
  {request : EndpointRequest β}

/-- What is left to do in a phase. -/
inductive Stage (sha256 : β → String) (texts : ReplyTexts β) (i : ι) (request : EndpointRequest β) :
    Service ι Unit → Phase → Prop
  | arrived {key : ClaimKey} (hkey : request.claimKey? = some key) :
      Stage sha256 texts i request (idempotent sha256 texts i request) .arrived
  | refused {key : ClaimKey} (hkey : request.claimKey? = some key) :
      Stage sha256 texts i request (onDb (findClaim key) >>= answerFrom sha256 texts i request) .refused
  | judged (reply : Reply) : Stage sha256 texts i request (send i reply) (.judged reply)
  | answered (reply : Reply) : Stage sha256 texts i request (.done (.ok ())) (.answered reply)
  | won {claim : Option Id} (hclaim : claim = none ↔ request.claimKey? = none) :
      Stage sha256 texts i request (next texts i request claim) (.won claim)
  | handling {claim : Option Id} (hclaim : claim = none ↔ request.claimKey? = none)
      {p : Handler EndpointResult} (hp : Quiet claimTables p) :
      Stage sha256 texts i request (onDb p >>= finish texts i request claim) (.handling claim)
  | sent {claim : Option Id} (hclaim : claim = none ↔ request.claimKey? = none) (reply : Reply) :
      Stage sha256 texts i request (storeResponse request claim reply) (.sent claim reply)
  | stored (claim : Id) (reply : Reply) :
      Stage sha256 texts i request (.done (.ok ())) (.stored claim reply)

/-- What a statement of a request does. -/
inductive RequestStep (sha256 : β → String) (texts : ReplyTexts β) (i : ι)
    (request : EndpointRequest β) (w : World ι) : Phase → World ι → Phase → Prop
  | idle (phase : Phase) : RequestStep sha256 texts i request w phase w phase
  | claimed {key : ClaimKey} (hkey : request.claimKey? = some key)
      (hfree : ∀ id row, w.db.find? .idempotencyKey id = some row → row.claimKey ≠ key) :
      RequestStep sha256 texts i request w .arrived
        (w.setDb (w.db.insert .idempotencyKey (request.claimRow sha256 key)))
        (.won (some (w.db.nextId .idempotencyKey)))
  | refused {id : Id} {row : IdempotencyKey} (hrow : w.db.find? .idempotencyKey id = some row)
      (hkey : request.claimKey? = some row.claimKey) :
      RequestStep sha256 texts i request w .arrived w .refused
  | missed {key : ClaimKey} (hkey : request.claimKey? = some key)
      (hfree : ∀ id row, w.db.find? .idempotencyKey id = some row → row.claimKey ≠ key)
      (reply : Reply) : RequestStep sha256 texts i request w .refused w (.judged reply)
  | judged {id : Id} {row : IdempotencyKey} {reply : Reply}
      (hrow : w.db.find? .idempotencyKey id = some row) (hkey : request.claimKey? = some row.claimKey)
      (hreply : row.requestHash ≠ sha256 request.body ∧ reply = texts.differentBody ∨
        row.requestHash = sha256 request.body ∧
          (reply = texts.inProgress ∨ row.response = some reply)) :
      RequestStep sha256 texts i request w .refused w (.judged reply)
  | answered (reply : Reply) :
      RequestStep sha256 texts i request w (.judged reply)
        { w with replies := w.replies ++ [(i, reply)] } (.answered reply)
  | called (claim : Option Id) :
      RequestStep sha256 texts i request w (.won claim)
        { w with invoked := w.invoked ++ [i] } (.handling claim)
  | worked (claim : Option Id) {s : Db} (h : w.db.Agree claimTables s) :
      RequestStep sha256 texts i request w (.handling claim) (w.setDb s) (.handling claim)
  | sent (claim : Option Id) (reply : Reply) :
      RequestStep sha256 texts i request w (.handling claim)
        { w with replies := w.replies ++ [(i, reply)] } (.sent claim reply)
  | stored {claim : Id} {row : IdempotencyKey}
      (hrow : w.db.find? .idempotencyKey claim = some row) (reply : Reply) :
      RequestStep sha256 texts i request w (.sent (some claim) reply)
        (w.setDb (w.db.modify .idempotencyKey claim (.complete reply request.now)))
        (.stored claim reply)
  | lost {claim : Id} (hrow : w.db.find? .idempotencyKey claim = none) (reply : Reply) :
      RequestStep sha256 texts i request w (.sent (some claim) reply) w (.stored claim reply)

/-- A claim key is taken if a row has it. -/
theorem Db.claimKey_mem_iff {s : Db} {key : ClaimKey} :
    key ∈ (s.table .idempotencyKey).values.map IdempotencyKey.claimKey ↔
      ∃ id row, s.find? .idempotencyKey id = some row ∧ row.claimKey = key := by
  constructor
  · intro h
    obtain ⟨row, hrow, hkey⟩ := List.mem_map.mp h
    obtain ⟨id, hid⟩ := OrderedMap.mem_values.mp hrow
    exact ⟨id, row, hid, hkey⟩
  · intro h
    obtain ⟨id, row, hrow, hkey⟩ := h
    exact List.mem_map.mpr ⟨row, OrderedMap.mem_values.mpr ⟨id, hrow⟩, hkey⟩

theorem EndpointRequest.claimKey_claimRow (request : EndpointRequest β) (key : ClaimKey) :
    (request.claimRow sha256 key).claimKey = key := rfl

theorem next_onDb_attempt {α γ : Type} (lab : Access) (act : Db → Except Failure α × Db)
    (k : Except Failure α → Service ι γ) (w : World ι) :
    (onDb (Proc.attempt lab act) >>= k).next w = (k (act w.db).1, w.setDb (act w.db).2) := rfl

/-- The answer to a request that has lost its claim follows from the row of the winner. -/
theorem answerFrom_found (sha256 : β → String) (texts : ReplyTexts β) (i : ι)
    (request : EndpointRequest β) (id : Id) (row : IdempotencyKey) :
    ∃ reply, answerFrom sha256 texts i request (.ok (some (id, row))) = send i reply ∧
      (row.requestHash ≠ sha256 request.body ∧ reply = texts.differentBody ∨
        row.requestHash = sha256 request.body ∧
          (reply = texts.inProgress ∨ row.response = some reply)) := by
  unfold answerFrom
  dsimp only
  by_cases hhash : row.requestHash = sha256 request.body
  · rw [if_neg (not_not.mpr hhash)]
    cases hresponse : row.response with
    | none => exact ⟨texts.inProgress, rfl, .inr ⟨hhash, .inl rfl⟩⟩
    | some reply => exact ⟨reply, rfl, .inr ⟨hhash, .inr rfl⟩⟩
  · rw [if_pos hhash]
    exact ⟨texts.differentBody, rfl, .inl ⟨hhash, rfl⟩⟩

namespace Stage

variable {w : World ι} {p : Service ι Unit} {phase : Phase}

/-- The claim is won or lost. -/
theorem next_arrived {key : ClaimKey} (hkey : request.claimKey? = some key) (w : World ι) :
    ∃ phase', Stage sha256 texts i request ((idempotent sha256 texts i request).next w).1 phase' ∧
      RequestStep sha256 texts i request w .arrived ((idempotent sha256 texts i request).next w).2
        phase' := by
  obtain ⟨k, hsplit, hok, herror⟩ : ∃ k : Except Failure Id → Service ι Unit,
      idempotent sha256 texts i request = onDb (createClaim (request.claimRow sha256 key)) >>= k ∧
        (∀ id, k (.ok id) = next texts i request (some id)) ∧
        ∀ err, k (.error err) =
          if err ≠ uniqueViolation then send i (texts.internal request)
          else onDb (findClaim key) >>= answerFrom sha256 texts i request := by
    unfold idempotent
    rewrite [hkey]
    exact ⟨_, rfl, fun _ => rfl, fun _ => rfl⟩
  rw [hsplit, createClaim, next_onDb_attempt, request.claimKey_claimRow]
  by_cases htaken : key ∈ (w.db.table .idempotencyKey).values.map IdempotencyKey.claimKey
  · obtain ⟨id, row, hrow, rfl⟩ := Db.claimKey_mem_iff.mp htaken
    simp only [if_pos htaken, herror, ne_eq, not_true, if_false]
    exact ⟨.refused, .refused hkey, .refused hrow hkey⟩
  · simp only [if_neg htaken, hok]
    refine ⟨.won (some (w.db.nextId .idempotencyKey)), .won ?_, .claimed hkey fun id row hrow heq => ?_⟩
    · simp [hkey]
    · exact htaken (Db.claimKey_mem_iff.mpr ⟨id, row, hrow, heq⟩)

/-- The claim of the key is read, and the answer follows from it. -/
theorem next_refused {key : ClaimKey} (hkey : request.claimKey? = some key) (w : World ι) :
    ∃ phase', Stage sha256 texts i request
        ((onDb (findClaim key) >>= answerFrom sha256 texts i request).next w).1 phase' ∧
      RequestStep sha256 texts i request w .refused
        ((onDb (findClaim key) >>= answerFrom sha256 texts i request).next w).2 phase' := by
  have hnext : (onDb (findClaim key) >>= answerFrom sha256 texts i request).next w =
      (answerFrom sha256 texts i request (.ok ((w.db.table .idempotencyKey).entries.find? fun e =>
        e.2.claimKey = key)), w) := rfl
  rw [hnext]
  cases hfound : (w.db.table .idempotencyKey).entries.find? fun e => e.2.claimKey = key with
  | none =>
    refine ⟨.judged (texts.internal request), .judged _, .missed hkey (fun id row hrow heq => ?_) _⟩
    have hmem := OrderedMap.get?_eq_some.mp hrow
    exact List.find?_eq_none.mp hfound _ hmem (decide_eq_true heq)
  | some e =>
    obtain ⟨id, row⟩ := e
    have hrow : w.db.find? .idempotencyKey id = some row :=
      OrderedMap.get?_eq_some.mpr (List.mem_of_find?_eq_some hfound)
    have htest := List.find?_some hfound
    have hrowKey : row.claimKey = key := of_decide_eq_true htest
    rw [← hrowKey] at hkey
    obtain ⟨reply, hsend, hreply⟩ := answerFrom_found sha256 texts i request id row
    rw [hsend]
    exact ⟨.judged reply, .judged reply, .judged hrow hkey hreply⟩

/-- The handler does its next statement, or has come to its end. -/
theorem next_handling {claim : Option Id} (hclaim : claim = none ↔ request.claimKey? = none)
    {p : Handler EndpointResult} (hp : Quiet claimTables p) (w : World ι) :
    ∃ phase', Stage sha256 texts i request
        ((onDb p >>= finish texts i request claim).next w).1 phase' ∧
      RequestStep sha256 texts i request w (.handling claim)
        ((onDb p >>= finish texts i request claim).next w).2 phase' := by
  cases p with
  | done r =>
    exact ⟨.sent claim (texts.reply request r), .sent hclaim _, .sent claim _⟩
  | stmt lab act k =>
    exact ⟨.handling claim, .handling hclaim (hp.2 _), .worked claim (hp.1 w.db)⟩

/-- The answer is stored. -/
theorem next_sent {claim : Option Id} (hclaim : claim = none ↔ request.claimKey? = none)
    (reply : Reply) (w : World ι) :
    ∃ phase', Stage sha256 texts i request
        ((storeResponse request claim reply : Service ι Unit).next w).1 phase' ∧
      RequestStep sha256 texts i request w (.sent claim reply)
        ((storeResponse request claim reply : Service ι Unit).next w).2 phase' := by
  cases claim with
  | none => exact ⟨.sent none reply, .sent hclaim reply, .idle _⟩
  | some id =>
    refine ⟨.stored id reply, .stored id reply, ?_⟩
    show RequestStep sha256 texts i request w _ ((onDb (update .idempotencyKey id
      (.complete reply request.now)) >>= fun _ => pure () : Service ι Unit).next w).2 _
    rw [update, updateAs, next_onDb_attempt]
    cases hrow : w.db.find? .idempotencyKey id with
    | some row => simpa only [hrow] using RequestStep.stored hrow reply
    | none =>
      dsimp only
      exact .lost hrow reply

theorem next (h : Stage sha256 texts i request p phase) (w : World ι) :
    ∃ phase', Stage sha256 texts i request (p.next w).1 phase' ∧
      RequestStep sha256 texts i request w phase (p.next w).2 phase' := by
  cases h with
  | arrived hkey => exact next_arrived hkey w
  | refused hkey => exact next_refused hkey w
  | judged reply => exact ⟨.answered reply, .answered reply, .answered reply⟩
  | answered reply => exact ⟨.answered reply, .answered reply, .idle _⟩
  | @won claim hclaim =>
    exact ⟨.handling claim, .handling hclaim request.call.quiet, .called claim⟩
  | handling hclaim hp => exact next_handling hclaim hp w
  | sent hclaim reply => exact next_sent hclaim reply w
  | stored claim reply => exact ⟨.stored claim reply, .stored claim reply, .idle _⟩

end Stage

end Requests

/-! ## What holds in every run -/

section Pool

variable {ι β : Type} {sha256 : β → String} {texts : ReplyTexts β}
  {requests : ι → EndpointRequest β}

/-- The rows of the claims belong to the requests that have won them. -/
structure ClaimsHeld (sha256 : β → String) (requests : ι → EndpointRequest β) (s : Db)
    (phases : ι → Phase) : Prop where
  row : ∀ i id, (phases i).claim = some id → ∃ row, s.find? .idempotencyKey id = some row ∧
    (requests i).claimKey? = some row.claimKey ∧ row.requestHash = sha256 (requests i).body ∧
    row.response = (phases i).response
  holder : ∀ id row i, s.find? .idempotencyKey id = some row →
    (requests i).claimKey? = some row.claimKey → ∃ j, (phases j).claim = some id
  inj : ∀ i j id, (phases i).claim = some id → (phases j).claim = some id → i = j
  distinct : ∀ id id' row row', s.find? .idempotencyKey id = some row →
    s.find? .idempotencyKey id' = some row' → row.claimKey = row'.claimKey → id = id'

/-- What has been recorded agrees with the phases. -/
structure Recorded (w : World ι) (phases : ι → Phase) : Prop where
  invoked : ∀ i, i ∈ w.invoked ↔ (phases i).Called
  nodup : w.invoked.Nodup
  replies : ∀ i reply, (i, reply) ∈ w.replies ↔ (phases i).reply = some reply

/-- Another request has won the claim, and the answer follows from it. -/
def Beaten (sha256 : β → String) (texts : ReplyTexts β) (requests : ι → EndpointRequest β)
    (phases : ι → Phase) (i : ι) (reply : Reply) : Prop :=
  ∃ j id, (phases j).claim = some id ∧ (requests j).claimKey? = (requests i).claimKey? ∧
    (sha256 (requests j).body ≠ sha256 (requests i).body ∧ reply = texts.differentBody ∨
      sha256 (requests j).body = sha256 (requests i).body ∧
        (reply = texts.inProgress ∨ (phases j).response = some reply))

/-- A request that has not won its claim has been beaten to it. -/
def Phase.Losing (sha256 : β → String) (texts : ReplyTexts β) (requests : ι → EndpointRequest β)
    (phases : ι → Phase) (i : ι) : Phase → Prop
  | .refused => ∃ j id, (phases j).claim = some id ∧ (requests j).claimKey? = (requests i).claimKey?
  | .judged reply | .answered reply => Beaten sha256 texts requests phases i reply
  | .arrived | .won _ | .handling _ | .sent .. | .stored .. => True

/-- The phases go on: a claim is kept, and so is the answer that is in it. -/
def Onward (phases phases' : ι → Phase) : Prop :=
  ∀ j, (∀ id, (phases j).claim = some id → (phases' j).claim = some id) ∧
    ∀ reply, (phases j).response = some reply → (phases' j).response = some reply

theorem Beaten.onward {phases phases' : ι → Phase} (h : Onward phases phases') {i : ι} {reply : Reply}
    (hbeaten : Beaten sha256 texts requests phases i reply) :
    Beaten sha256 texts requests phases' i reply := by
  obtain ⟨j, id, hclaim, hkey, hreply⟩ := hbeaten
  refine ⟨j, id, (h j).1 id hclaim, hkey, ?_⟩
  rcases hreply with hdifferent | ⟨hbody, hprogress | hresponse⟩
  · exact .inl hdifferent
  · exact .inr ⟨hbody, .inl hprogress⟩
  · exact .inr ⟨hbody, .inr ((h j).2 reply hresponse)⟩

theorem Phase.Losing.onward {phases phases' : ι → Phase} (h : Onward phases phases') {i : ι}
    {phase : Phase} (hlosing : phase.Losing sha256 texts requests phases i) :
    phase.Losing sha256 texts requests phases' i := by
  cases phase with
  | refused =>
    obtain ⟨j, id, hclaim, hkey⟩ := hlosing
    exact ⟨j, id, (h j).1 id hclaim, hkey⟩
  | judged reply => exact Beaten.onward h hlosing
  | answered reply => exact Beaten.onward h hlosing
  | arrived => trivial
  | won claim => trivial
  | handling claim => trivial
  | sent claim reply => trivial
  | stored claim reply => trivial

namespace ClaimsHeld

variable {s t : Db} {phases : ι → Phase}

/-- Two requests that have won claims under one key are the same. -/
theorem eq_of_claimKey (h : ClaimsHeld sha256 requests s phases) {i j : ι} {id id' : Id}
    (hi : (phases i).claim = some id) (hj : (phases j).claim = some id')
    (hkey : (requests i).claimKey? = (requests j).claimKey?) : i = j := by
  obtain ⟨row, hrow, hrowKey, -⟩ := h.row i id hi
  obtain ⟨row', hrow', hrowKey', -⟩ := h.row j id' hj
  rw [hrowKey, hrowKey', Option.some.injEq] at hkey
  rw [h.distinct id id' row row' hrow hrow' hkey] at hi
  exact h.inj i j id' hi hj

/-- Nothing has happened to the claims. -/
theorem congr (h : ClaimsHeld sha256 requests s phases) (hsame : s.Agree claimTables t)
    {phases' : ι → Phase} (hclaim : ∀ j, (phases' j).claim = (phases j).claim)
    (hresponse : ∀ j, (phases' j).response = (phases j).response) :
    ClaimsHeld sha256 requests t phases' := by
  have hfind : ∀ id, t.find? .idempotencyKey id = s.find? .idempotencyKey id :=
    fun id => hsame.find? (m := .idempotencyKey) (by decide) id
  constructor
  · intro i id hi
    rw [hclaim] at hi
    rw [hfind, hresponse]
    exact h.row i id hi
  · intro id row i hrow hkey
    rw [hfind] at hrow
    obtain ⟨j, hj⟩ := h.holder id row i hrow hkey
    exact ⟨j, (hclaim j).trans hj⟩
  · intro i j id hi hj
    rw [hclaim] at hi hj
    exact h.inj i j id hi hj
  · intro id id' row row' hrow hrow' hkey
    rw [hfind] at hrow hrow'
    exact h.distinct id id' row row' hrow hrow' hkey

end ClaimsHeld

variable [DecidableEq ι]

/-- What is said of all phases is said of them after one has changed. -/
theorem update_phase {γ : Type} (f : Phase → γ) {phases : ι → Phase} {i : ι} {phase : Phase}
    (h : f phase = f (phases i)) (j : ι) : f (Function.update phases i phase j) = f (phases j) := by
  by_cases hj : j = i
  · rw [hj, Function.update_self, h]
  · rw [Function.update_of_ne hj]

namespace ClaimsHeld

variable {s t : Db} {phases : ι → Phase} {i : ι}

/-- A claim is won. -/
theorem claimed (h : ClaimsHeld sha256 requests s phases) (harrived : phases i = .arrived)
    {key : ClaimKey} (hkey : (requests i).claimKey? = some key)
    (hfree : ∀ id row, s.find? .idempotencyKey id = some row → row.claimKey ≠ key) :
    ClaimsHeld sha256 requests (s.insert .idempotencyKey ((requests i).claimRow sha256 key))
      (Function.update phases i (.won (some (s.nextId .idempotencyKey)))) := by
  have hnew : ∀ id, s.find? .idempotencyKey id ≠ none → id ≠ s.nextId .idempotencyKey := by
    intro id hid heq
    rw [heq] at hid
    exact hid (OrderedMap.get?_nextKey _)
  have hold : ∀ j id, (phases j).claim = some id → id ≠ s.nextId .idempotencyKey := by
    intro j id hj
    obtain ⟨row, hrow, -⟩ := h.row j id hj
    exact hnew id (by simp [hrow])
  constructor
  · intro j id hj
    rw [Db.find?_insert]
    by_cases hji : j = i
    · subst hji
      rw [Function.update_self] at hj ⊢
      rw [if_pos (Option.some.inj hj).symm]
      exact ⟨_, rfl, hkey, rfl, rfl⟩
    · rw [Function.update_of_ne hji] at hj ⊢
      rw [if_neg (hold j id hj)]
      exact h.row j id hj
  · intro id row j hrow hjkey
    rw [Db.find?_insert] at hrow
    by_cases hid : id = s.nextId .idempotencyKey
    · refine ⟨i, ?_⟩
      rw [Function.update_self, hid]
      rfl
    · rw [if_neg hid] at hrow
      obtain ⟨k, hk⟩ := h.holder id row j hrow hjkey
      have hki : k ≠ i := by
        intro heq
        rw [heq, harrived] at hk
        exact absurd hk nofun
      exact ⟨k, by rwa [Function.update_of_ne hki]⟩
  · intro j k id hj hk
    by_cases hji : j = i
    · by_cases hki : k = i
      · rw [hji, hki]
      · rw [hji, Function.update_self] at hj
        rw [Function.update_of_ne hki] at hk
        exact absurd (Option.some.inj hj).symm (hold k id hk)
    · rw [Function.update_of_ne hji] at hj
      by_cases hki : k = i
      · rw [hki, Function.update_self] at hk
        exact absurd (Option.some.inj hk).symm (hold j id hj)
      · rw [Function.update_of_ne hki] at hk
        exact h.inj j k id hj hk
  · intro id id' row row' hrow hrow' hsame
    rw [Db.find?_insert] at hrow hrow'
    by_cases hid : id = s.nextId .idempotencyKey
    · by_cases hid' : id' = s.nextId .idempotencyKey
      · rw [hid, hid']
      · rw [if_pos hid] at hrow
        rw [if_neg hid'] at hrow'
        rw [← Option.some.inj hrow] at hsame
        exact absurd hsame.symm (hfree id' row' hrow')
    · rw [if_neg hid] at hrow
      by_cases hid' : id' = s.nextId .idempotencyKey
      · rw [if_pos hid'] at hrow'
        rw [← Option.some.inj hrow'] at hsame
        exact absurd hsame (hfree id row hrow)
      · rw [if_neg hid'] at hrow'
        exact h.distinct id id' row row' hrow hrow' hsame

/-- The answer is stored in the claim. -/
theorem stored (h : ClaimsHeld sha256 requests s phases) {claim : Id} {reply : Reply}
    (hsent : phases i = .sent (some claim) reply) (now : DateTime) :
    ClaimsHeld sha256 requests (s.modify .idempotencyKey claim (.complete reply now))
      (Function.update phases i (.stored claim reply)) := by
  have hclaim : ∀ j, (Function.update phases i (.stored claim reply) j).claim = (phases j).claim :=
    update_phase Phase.claim (by rw [hsent]; rfl)
  have hback : ∀ id row, (s.modify .idempotencyKey claim (.complete reply now)).find?
      .idempotencyKey id = some row → ∃ old, s.find? .idempotencyKey id = some old ∧
        row.claimKey = old.claimKey := by
    intro id row hrow
    rw [Db.find?_modify] at hrow
    by_cases hid : id = claim
    · rw [if_pos hid] at hrow
      obtain ⟨old, hold, rfl⟩ := Option.map_eq_some_iff.mp hrow
      exact ⟨old, hold, rfl⟩
    · rw [if_neg hid] at hrow
      exact ⟨row, hrow, rfl⟩
  constructor
  · intro j id hj
    rw [hclaim] at hj
    obtain ⟨row, hrow, hkey, hhash, hresponse⟩ := h.row j id hj
    rw [Db.find?_modify]
    by_cases hji : j = i
    · rw [hji, hsent] at hj
      have hid : id = claim := (Option.some.inj hj).symm
      rw [if_pos hid, hrow, hji, Function.update_self]
      rw [hji] at hkey hhash
      exact ⟨_, rfl, hkey, hhash, rfl⟩
    · have hid : id ≠ claim := by
        intro heq
        rw [heq] at hj
        exact hji (h.inj j i claim hj (by rw [hsent]; rfl))
      rw [if_neg hid, Function.update_of_ne hji]
      exact ⟨row, hrow, hkey, hhash, hresponse⟩
  · intro id row j hrow hkey
    obtain ⟨old, hold, hsame⟩ := hback id row hrow
    rw [hsame] at hkey
    obtain ⟨k, hk⟩ := h.holder id old j hold hkey
    exact ⟨k, (hclaim k).trans hk⟩
  · intro j k id hj hk
    rw [hclaim] at hj hk
    exact h.inj j k id hj hk
  · intro id id' row row' hrow hrow' hkey
    obtain ⟨old, hold, hsame⟩ := hback id row hrow
    obtain ⟨old', hold', hsame'⟩ := hback id' row' hrow'
    rw [hsame, hsame'] at hkey
    exact h.distinct id id' old old' hold hold' hkey

end ClaimsHeld

namespace Recorded

variable {w : World ι} {phases : ι → Phase} {i : ι} {phase : Phase}

theorem congr (h : Recorded w phases) {w' : World ι} (hinvoked : w'.invoked = w.invoked)
    (hreplies : w'.replies = w.replies) (hcalled : phase.Called = (phases i).Called)
    (hreply : phase.reply = (phases i).reply) :
    Recorded w' (Function.update phases i phase) where
  invoked := fun j => by
    rw [hinvoked, update_phase Phase.Called hcalled]
    exact h.invoked j
  nodup := by rw [hinvoked]; exact h.nodup
  replies := fun j reply => by
    rw [hreplies, update_phase Phase.reply hreply]
    exact h.replies j reply

/-- The handler is called. -/
theorem called (h : Recorded w phases) (hnot : ¬ (phases i).Called) (hcalled : phase.Called)
    (hreply : phase.reply = (phases i).reply) :
    Recorded { w with invoked := w.invoked ++ [i] } (Function.update phases i phase) where
  invoked := fun j => by
    rw [List.mem_append, List.mem_singleton, h.invoked]
    by_cases hj : j = i
    · rw [hj, Function.update_self]
      simp [hcalled]
    · rw [Function.update_of_ne hj]
      simp [hj]
  nodup := by
    rw [List.nodup_append]
    refine ⟨h.nodup, List.nodup_singleton i, fun a ha b hb heq => ?_⟩
    rw [heq, List.mem_singleton.mp hb] at ha
    exact hnot ((h.invoked i).mp ha)
  replies := fun j reply => by
    rw [update_phase Phase.reply hreply]
    exact h.replies j reply

/-- An answer is sent. -/
theorem sent (h : Recorded w phases) (hnot : (phases i).reply = none) {reply : Reply}
    (hcalled : phase.Called = (phases i).Called) (hreply : phase.reply = some reply) :
    Recorded { w with replies := w.replies ++ [(i, reply)] } (Function.update phases i phase) where
  invoked := fun j => by
    rw [update_phase Phase.Called hcalled]
    exact h.invoked j
  nodup := h.nodup
  replies := fun j reply' => by
    rw [List.mem_append, List.mem_singleton, Prod.mk.injEq, h.replies]
    by_cases hj : j = i
    · rw [hj, Function.update_self, hreply, hnot]
      simp [eq_comm]
    · rw [Function.update_of_ne hj]
      simp [hj]

end Recorded

/-- What holds of the requests, apart from what each has left to do. -/
structure Kept (sha256 : β → String) (texts : ReplyTexts β) (requests : ι → EndpointRequest β)
    (w : World ι) (phases : ι → Phase) : Prop where
  claims : ClaimsHeld sha256 requests w.db phases
  recorded : Recorded w phases
  losing : ∀ i, (phases i).Losing sha256 texts requests phases i

section Step

variable {w w' : World ι} {phases : ι → Phase} {i : ι} {phase : Phase}

theorem Onward.update (hclaim : ∀ id, (phases i).claim = some id → phase.claim = some id)
    (hresponse : ∀ reply, (phases i).response = some reply → phase.response = some reply) :
    Onward phases (Function.update phases i phase) := by
  intro j
  by_cases hj : j = i
  · rw [hj, Function.update_self]
    exact ⟨hclaim, hresponse⟩
  · rw [Function.update_of_ne hj]
    exact ⟨fun _ h => h, fun _ h => h⟩

/-- Only the losing of the request itself has to be shown. -/
theorem Kept.losing_update (h : Kept sha256 texts requests w phases)
    (honward : Onward phases (Function.update phases i phase))
    (hi : phase.Losing sha256 texts requests (Function.update phases i phase) i) (j : ι) :
    (Function.update phases i phase j).Losing sha256 texts requests
      (Function.update phases i phase) j := by
  by_cases hj : j = i
  · rw [hj]
    rwa [Function.update_self]
  · have hold := (h.losing j).onward honward
    rwa [Function.update_of_ne hj]

/-- A step that does nothing to the claims. -/
theorem Kept.of_congr (h : Kept sha256 texts requests w phases)
    (hsame : w.db.Agree claimTables w'.db) (hclaim : phase.claim = (phases i).claim)
    (hresponse : phase.response = (phases i).response)
    (hrecorded : Recorded w' (Function.update phases i phase))
    (hi : phase.Losing sha256 texts requests phases i) :
    Kept sha256 texts requests w' (Function.update phases i phase) := by
  have honward : Onward phases (Function.update phases i phase) :=
    .update (fun id hid => hclaim.trans hid) fun reply hreply => hresponse.trans hreply
  exact ⟨h.claims.congr hsame (update_phase Phase.claim hclaim)
    (update_phase Phase.response hresponse), hrecorded, h.losing_update honward (hi.onward honward)⟩

omit [DecidableEq ι] in
/-- A claim that is found was won by a request of the same key. -/
theorem Kept.exists_holder (h : Kept sha256 texts requests w phases) {id : Id} {row : IdempotencyKey}
    (hrow : w.db.find? .idempotencyKey id = some row)
    (hkey : (requests i).claimKey? = some row.claimKey) :
    ∃ j, (phases j).claim = some id ∧ (requests j).claimKey? = (requests i).claimKey? ∧
      row.requestHash = sha256 (requests j).body ∧ row.response = (phases j).response := by
  obtain ⟨j, hj⟩ := h.claims.holder id row i hrow hkey
  obtain ⟨row', hrow', hkey', hhash, hresponse⟩ := h.claims.row j id hj
  have hsame : row' = row := Option.some.inj (hrow'.symm.trans hrow)
  rw [hsame] at hkey' hhash hresponse
  exact ⟨j, hj, hkey'.trans hkey.symm, hhash, hresponse⟩

/-- Every statement keeps it. -/
theorem RequestStep.kept (hstep : RequestStep sha256 texts i (requests i) w (phases i) w' phase)
    (h : Kept sha256 texts requests w phases) :
    Kept sha256 texts requests w' (Function.update phases i phase) := by
  have hlosing := h.losing i
  generalize hphase : phases i = before at hstep hlosing
  have hsame : w.db.Agree claimTables w.db := .refl _
  cases hstep with
  | idle =>
    rw [← hphase, Function.update_eq_self]
    exact h
  | claimed hkey hfree =>
    have honward : Onward phases
        (Function.update phases i (.won (some (w.db.nextId .idempotencyKey)))) := by
      apply Onward.update
      · rw [hphase]
        exact nofun
      · rw [hphase]
        exact nofun
    refine ⟨h.claims.claimed hphase hkey hfree, ?_, h.losing_update honward trivial⟩
    exact h.recorded.congr rfl rfl (by rw [hphase]; rfl) (by rw [hphase]; rfl)
  | refused hrow hkey =>
    have hrecorded : Recorded w (Function.update phases i .refused) :=
      h.recorded.congr rfl rfl (by rw [hphase]; rfl) (by rw [hphase]; rfl)
    refine h.of_congr hsame (by rw [hphase]; rfl) (by rw [hphase]; rfl) hrecorded ?_
    obtain ⟨j, hj, hjkey, -⟩ := h.exists_holder hrow hkey
    exact ⟨j, _, hj, hjkey⟩
  | missed hkey hfree reply =>
    obtain ⟨j, id, hj, hjkey⟩ := hlosing
    obtain ⟨row, hrow, hrowKey, -⟩ := h.claims.row j id hj
    rw [hjkey, hkey, Option.some.injEq] at hrowKey
    exact absurd hrowKey.symm (hfree id row hrow)
  | @judged id row reply hrow hkey hreply =>
    have hrecorded : Recorded w (Function.update phases i (.judged reply)) :=
      h.recorded.congr rfl rfl (by rw [hphase]; rfl) (by rw [hphase]; rfl)
    refine h.of_congr hsame (by rw [hphase]; rfl) (by rw [hphase]; rfl) hrecorded ?_
    obtain ⟨j, hj, hjkey, hhash, hresponse⟩ := h.exists_holder hrow hkey
    rw [hhash, hresponse] at hreply
    exact ⟨j, id, hj, hjkey, hreply⟩
  | answered reply =>
    have hrecorded : Recorded { w with replies := w.replies ++ [(i, reply)] }
        (Function.update phases i (.answered reply)) :=
      h.recorded.sent (by rw [hphase]; rfl) (by rw [hphase]; rfl) rfl
    exact h.of_congr hsame (by rw [hphase]; rfl) (by rw [hphase]; rfl) hrecorded hlosing
  | called claim =>
    have hrecorded : Recorded { w with invoked := w.invoked ++ [i] }
        (Function.update phases i (.handling claim)) :=
      h.recorded.called (by rw [hphase]; exact id) trivial (by rw [hphase]; rfl)
    exact h.of_congr hsame (by rw [hphase]; rfl) (by rw [hphase]; rfl) hrecorded trivial
  | @worked claim s hagree =>
    have hrecorded : Recorded (w.setDb s) (Function.update phases i (.handling claim)) :=
      h.recorded.congr rfl rfl (by rw [hphase]) (by rw [hphase])
    exact h.of_congr hagree (by rw [hphase]) (by rw [hphase]) hrecorded trivial
  | sent claim reply =>
    have hrecorded : Recorded { w with replies := w.replies ++ [(i, reply)] }
        (Function.update phases i (.sent claim reply)) :=
      h.recorded.sent (by rw [hphase]; rfl) (by rw [hphase]; rfl) rfl
    exact h.of_congr hsame (by rw [hphase]; rfl) (by rw [hphase]; rfl) hrecorded trivial
  | @stored claim row hrow reply =>
    have honward : Onward phases (Function.update phases i (.stored claim reply)) := by
      apply Onward.update
      · rw [hphase]
        exact fun id hid => hid
      · rw [hphase]
        exact nofun
    refine ⟨h.claims.stored hphase _, ?_, h.losing_update honward trivial⟩
    exact h.recorded.congr rfl rfl (by rw [hphase]; rfl) (by rw [hphase]; rfl)
  | @lost claim hrow reply =>
    obtain ⟨row, hfound, -⟩ := h.claims.row i claim (by rw [hphase]; rfl)
    rw [hrow] at hfound
    exact absurd hfound nofun

omit [DecidableEq ι] in
/-- A statement of a request leaves the claims of other keys alone. -/
theorem RequestStep.frame (hstep : RequestStep sha256 texts i (requests i) w (phases i) w' phase)
    (h : Kept sha256 texts requests w phases) {id : Id} {row : IdempotencyKey}
    (hother : (requests i).claimKey? ≠ some row.claimKey) :
    w'.db.find? .idempotencyKey id = some row ↔ w.db.find? .idempotencyKey id = some row := by
  generalize hphase : phases i = before at hstep
  cases hstep with
  | claimed hkey hfree =>
    show (w.db.insert .idempotencyKey _).find? .idempotencyKey id = some row ↔ _
    rw [Db.find?_insert]
    by_cases hid : id = w.db.nextId .idempotencyKey
    · have hfresh : w.db.find? .idempotencyKey id = none := by
        rw [hid]
        exact OrderedMap.get?_nextKey _
      rw [if_pos hid, hfresh]
      refine ⟨fun hrow => ?_, nofun⟩
      rw [← Option.some.inj hrow] at hother
      exact absurd hkey hother
    · rw [if_neg hid]
  | @worked claim s hagree =>
    show s.find? .idempotencyKey id = some row ↔ _
    rw [hagree.find? (m := .idempotencyKey) (by decide)]
  | @stored claim _ _ reply =>
    show (w.db.modify .idempotencyKey claim _).find? .idempotencyKey id = some row ↔ _
    rw [Db.find?_modify]
    by_cases hid : id = claim
    · obtain ⟨mine, hmine, hkey, -⟩ := h.claims.row i claim (by rw [hphase]; rfl)
      rw [if_pos hid, hid, hmine]
      constructor
      · intro hrow
        rw [← Option.some.inj hrow] at hother
        exact absurd hkey hother
      · intro hrow
        rw [← Option.some.inj hrow] at hother
        exact absurd hkey hother
    · rw [if_neg hid]
  | idle => exact Iff.rfl
  | refused => exact Iff.rfl
  | missed => exact Iff.rfl
  | judged => exact Iff.rfl
  | answered => exact Iff.rfl
  | called => exact Iff.rfl
  | sent => exact Iff.rfl
  | lost => exact Iff.rfl

end Step

/-! ## Every schedule -/

/-- A state the requests can come to. -/
structure Serving (sha256 : β → String) (texts : ReplyTexts β) (requests : ι → EndpointRequest β)
    (c : Pool ι Access (World ι) Empty Unit) (phases : ι → Phase) : Prop where
  stage : ∀ i, Stage sha256 texts i (requests i) (c.threads i) (phases i)
  kept : Kept sha256 texts requests c.state phases

/-- Requests that share the database. -/
def servicePool (sha256 : β → String) (texts : ReplyTexts β) (requests : ι → EndpointRequest β)
    (s : Db) : Pool ι Access (World ι) Empty Unit :=
  ⟨fun i => idempotent sha256 texts i (requests i), { db := s }⟩

/-- No key of the requests has been claimed before. -/
structure KeysFresh (requests : ι → EndpointRequest β) (s : Db) : Prop where
  unused : ∀ id row i, s.find? .idempotencyKey id = some row →
    (requests i).claimKey? ≠ some row.claimKey
  distinct : ∀ id id' row row', s.find? .idempotencyKey id = some row →
    s.find? .idempotencyKey id' = some row' → row.claimKey = row'.claimKey → id = id'

namespace Serving

variable {c : Pool ι Access (World ι) Empty Unit} {phases : ι → Phase} {s : Db}

omit [DecidableEq ι] in
theorem start (h : KeysFresh requests s) :
    ∃ phases, Serving sha256 texts requests (servicePool sha256 texts requests s) phases := by
  let phases (i : ι) : Phase := if (requests i).claimKey? = none then .won none else .arrived
  have hcases : ∀ i, phases i = .won none ∨ phases i = .arrived := by
    intro i
    by_cases hkey : (requests i).claimKey? = none
    · exact .inl (if_pos hkey)
    · exact .inr (if_neg hkey)
  have hclaim : ∀ i, (phases i).claim = none := by
    intro i
    rcases hcases i with hi | hi <;> rw [hi] <;> rfl
  have hcalled : ∀ i, ¬ (phases i).Called := by
    intro i
    rcases hcases i with hi | hi <;> rw [hi] <;> exact id
  have hreply : ∀ i, (phases i).reply = none := by
    intro i
    rcases hcases i with hi | hi <;> rw [hi] <;> rfl
  refine ⟨phases, fun i => ?_, ⟨⟨?_, ?_, ?_, h.distinct⟩, ⟨?_, List.nodup_nil, ?_⟩, fun i => ?_⟩⟩
  · show Stage sha256 texts i (requests i) (idempotent sha256 texts i (requests i)) _
    by_cases hkey : (requests i).claimKey? = none
    · have hnext : idempotent sha256 texts i (requests i) = next texts i (requests i) none := by
        unfold idempotent
        rw [hkey]
      have hphase : phases i = .won none := if_pos hkey
      rw [hnext, hphase]
      exact .won ⟨fun _ => hkey, fun _ => rfl⟩
    · obtain ⟨key, hsome⟩ := Option.ne_none_iff_exists'.mp hkey
      have hphase : phases i = .arrived := if_neg hkey
      rw [hphase]
      exact .arrived hsome
  · intro i id hi
    rw [hclaim] at hi
    exact absurd hi nofun
  · intro id row i hrow hkey
    exact absurd hkey (h.unused id row i hrow)
  · intro i j id hi
    rw [hclaim] at hi
    exact absurd hi nofun
  · intro i
    exact ⟨fun hi => absurd hi List.not_mem_nil, fun hi => absurd hi (hcalled i)⟩
  · intro i reply
    rw [hreply]
    exact ⟨fun hi => absurd hi List.not_mem_nil, nofun⟩
  · rcases hcases i with hi | hi <;> rw [hi] <;> trivial

theorem step (h : Serving sha256 texts requests c phases) (i : ι) :
    ∃ phase, RequestStep sha256 texts i (requests i) c.state (phases i) (c.step i).state phase ∧
      Serving sha256 texts requests (c.step i) (Function.update phases i phase) := by
  obtain ⟨phase, hstage, hstep⟩ := (h.stage i).next c.state
  rw [Pool.step_eq_next]
  refine ⟨phase, hstep, fun j => ?_, hstep.kept h.kept⟩
  by_cases hj : j = i
  · subst hj
    simpa using hstage
  · simpa [hj] using h.stage j

theorem run (h : Serving sha256 texts requests c phases) (sched : List ι) :
    ∃ phases', Serving sha256 texts requests (c.run sched) phases' := by
  induction sched generalizing c phases with
  | nil => exact ⟨phases, h⟩
  | cons i is ih =>
    obtain ⟨phase, -, hnext⟩ := h.step i
    exact ih hnext

omit [DecidableEq ι] in
/-- A request that has called its handler has won the claim of its key. -/
theorem exists_claim (h : Serving sha256 texts requests c phases) {i : ι} {key : ClaimKey}
    (hkey : (requests i).claimKey? = some key) (hcalled : (phases i).Called) :
    ∃ id, (phases i).claim = some id := by
  have hstage := h.stage i
  generalize c.threads i = p at hstage
  generalize phases i = phase at hstage hcalled
  have hsome : ∀ claim : Option Id, (claim = none ↔ (requests i).claimKey? = none) →
      ∃ id, claim = some id := by
    intro claim hclaim
    apply Option.ne_none_iff_exists'.mp
    rw [ne_eq, hclaim, hkey]
    exact nofun
  cases hstage with
  | handling hclaim _ => exact hsome _ hclaim
  | sent hclaim _ => exact hsome _ hclaim
  | stored claim _ => exact ⟨claim, rfl⟩
  | arrived => exact hcalled.elim
  | refused => exact hcalled.elim
  | judged => exact hcalled.elim
  | answered => exact hcalled.elim
  | won => exact hcalled.elim

omit [DecidableEq ι] in
/-- A request that has come to its end has been answered. -/
theorem exists_reply (h : Serving sha256 texts requests c phases) {i : ι} {r : Except Empty Unit}
    (hdone : c.threads i = .done r) : ∃ reply, (phases i).reply = some reply := by
  have hstage := h.stage i
  rw [hdone] at hstage
  generalize hp : (Proc.done r : Service ι Unit) = p at hstage
  generalize phases i = phase at hstage
  cases hstage with
  | answered reply => exact ⟨reply, rfl⟩
  | sent _ reply => exact ⟨reply, rfl⟩
  | stored _ reply => exact ⟨reply, rfl⟩
  | arrived hkey =>
    unfold idempotent at hp
    rw [hkey] at hp
    exact absurd hp nofun
  | refused => exact absurd hp nofun
  | judged => exact absurd hp nofun
  | won => exact absurd hp nofun
  | @handling claim _ p _ =>
    cases p with
    | done r => exact absurd hp nofun
    | stmt lab act k => exact absurd hp nofun

end Serving

/-- `first` is the request of its key that was served: its handler alone was called, an answer
to a request with the same key is its answer or a conflict, and it is the conflict that says
so if the bodies differ. -/
structure ServedFirst (texts : ReplyTexts β) (requests : ι → EndpointRequest β) (w : World ι)
    (key : ClaimKey) (first : ι) : Prop where
  key_eq : (requests first).claimKey? = some key
  invoked : ∀ reply, (first, reply) ∈ w.replies → first ∈ w.invoked
  only : ∀ i, (requests i).claimKey? = some key → i ∈ w.invoked → i = first
  replayed : ∀ i reply, (requests i).claimKey? = some key → (i, reply) ∈ w.replies →
    reply.status ≠ 409 → (first, reply) ∈ w.replies
  conflict : ∀ i reply, (requests i).claimKey? = some key → (i, reply) ∈ w.replies →
    (requests i).body ≠ (requests first).body → reply = texts.differentBody

omit [DecidableEq ι] in
/-- The request that has won the claim of a key is the first. -/
theorem Serving.servedFirst (hhash : Function.Injective sha256)
    {c : Pool ι Access (World ι) Empty Unit} {phases : ι → Phase}
    (h : Serving sha256 texts requests c phases) {key : ClaimKey} {first : ι} {id : Id}
    (hkey : (requests first).claimKey? = some key) (hfirst : (phases first).claim = some id) :
    ServedFirst texts requests c.state key first := by
  have hrecorded := h.kept.recorded
  have honly : ∀ i id', (phases i).claim = some id' → (requests i).claimKey? = some key → i = first :=
    fun i id' hi hikey => h.kept.claims.eq_of_claimKey hi hfirst (hikey.trans hkey.symm)
  have hinvoked : ∀ reply, (first, reply) ∈ c.state.replies → first ∈ c.state.invoked := by
    intro reply hreply
    rw [hrecorded.replies] at hreply
    rw [hrecorded.invoked]
    generalize phases first = phase at hfirst hreply
    cases phase with
    | sent claim reply => trivial
    | stored claim reply => trivial
    | handling claim => trivial
    | answered reply => exact absurd hfirst nofun
    | arrived => exact absurd hfirst nofun
    | refused => exact absurd hfirst nofun
    | judged reply => exact absurd hfirst nofun
    | won claim => exact absurd hreply nofun
  -- An answer is that of the first request, or follows from its claim.
  have hreplies : ∀ i reply, (requests i).claimKey? = some key → (i, reply) ∈ c.state.replies →
      i = first ∨ sha256 (requests first).body ≠ sha256 (requests i).body ∧
          reply = texts.differentBody ∨
        sha256 (requests first).body = sha256 (requests i).body ∧
          (reply = texts.inProgress ∨ (phases first).response = some reply) := by
    intro i reply hikey hreply
    rw [hrecorded.replies] at hreply
    have hlosing := h.kept.losing i
    by_cases hcalled : (phases i).Called
    · obtain ⟨id', hid'⟩ := h.exists_claim hikey hcalled
      exact .inl (honly i id' hid' hikey)
    · generalize phases i = phase at hreply hlosing hcalled
      cases phase with
      | answered reply' =>
        obtain ⟨j, id', hj, hjkey, hbeaten⟩ := hlosing
        have hsame : j = first := honly j id' hj (hjkey.trans hikey)
        rw [hsame, Option.some.inj hreply] at hbeaten
        exact .inr hbeaten
      | sent claim reply' => exact absurd trivial hcalled
      | stored claim reply' => exact absurd trivial hcalled
      | handling claim => exact absurd trivial hcalled
      | arrived => exact absurd hreply nofun
      | refused => exact absurd hreply nofun
      | judged reply' => exact absurd hreply nofun
      | won claim => exact absurd hreply nofun
  refine ⟨hkey, hinvoked, ?_, ?_, ?_⟩
  · intro i hikey hi
    obtain ⟨id', hid'⟩ := h.exists_claim hikey ((hrecorded.invoked i).mp hi)
    exact honly i id' hid' hikey
  · intro i reply hikey hreply hstatus
    rcases hreplies i reply hikey hreply with rfl | ⟨-, hdifferent⟩ | ⟨-, hprogress | hresponse⟩
    · exact hreply
    · rw [hdifferent] at hstatus
      exact absurd rfl hstatus
    · rw [hprogress] at hstatus
      exact absurd rfl hstatus
    · rw [hrecorded.replies]
      generalize phases first = phase at hresponse
      cases phase with
      | stored claim reply' => exact hresponse
      | sent claim reply' => exact absurd hresponse nofun
      | answered reply' => exact absurd hresponse nofun
      | handling claim => exact absurd hresponse nofun
      | arrived => exact absurd hresponse nofun
      | refused => exact absurd hresponse nofun
      | judged reply' => exact absurd hresponse nofun
      | won claim => exact absurd hresponse nofun
  · intro i reply hikey hreply hbody
    rcases hreplies i reply hikey hreply with rfl | ⟨-, hdifferent⟩ | ⟨hsame, -⟩
    · exact absurd rfl hbody
    · exact hdifferent
    · exact absurd (hhash hsame).symm hbody

/-- For every key either nothing has been done for its requests, or one of them was served and
the others are answered from it.  No handler has been called twice, a request that has come
to its end has been answered, and a next step leaves the claims of other keys alone. -/
structure ServedOnce (texts : ReplyTexts β) (requests : ι → EndpointRequest β)
    (c : Pool ι Access (World ι) Empty Unit) : Prop where
  served : ∀ key, (∃ first, ServedFirst texts requests c.state key first) ∨
    ∀ i, (requests i).claimKey? = some key →
      i ∉ c.state.invoked ∧ ∀ reply, (i, reply) ∉ c.state.replies
  nodup : c.state.invoked.Nodup
  answered : ∀ i r, c.threads i = .done r →
    ∃ reply, ∀ reply', (i, reply') ∈ c.state.replies ↔ reply' = reply
  apart : ∀ i id row, (requests i).claimKey? ≠ some row.claimKey →
    ((c.step i).state.db.find? .idempotencyKey id = some row ↔
      c.state.db.find? .idempotencyKey id = some row)

end Pool

/-! ## A request that is repeated -/

/-- A receipt into the main vault, under the key of the client. -/
def keyedReceipt (body : String) : EndpointRequest String :=
  { auth := ⟨1, 2⟩, now := 1, requestId := "r", originalUrl := "/vaults/1/ledger",
    idempotencyKey := some "k", body, call := .cashEntry ⟨1, 2⟩ 1 1 .receipt 100 none }

/-- The receipt is repeated, and once with another body. -/
def repeatedReceipt : Fin 3 → EndpointRequest String
  | 0 | 1 => keyedReceipt "100"
  | 2 => keyedReceipt "200"

def plainTexts : ReplyTexts String :=
  { result := fun _ => "result", error := fun error => error, report := fun body => body,
    internalError := fun requestId => requestId }

theorem keysFresh_repeatedReceipt : KeysFresh repeatedReceipt cashLedger := by
  have hnone : ∀ id, cashLedger.find? .idempotencyKey id = none := fun _ => rfl
  constructor
  · intro id row i hrow
    rw [hnone] at hrow
    exact absurd hrow nofun
  · intro id id' row row' hrow
    rw [hnone] at hrow
    exact absurd hrow nofun

end NexusEfos
