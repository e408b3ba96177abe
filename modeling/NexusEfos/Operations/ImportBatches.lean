/-
The undo of an import: `POST /batches/:id/undo` of `routes/migration.routes.ts`.

A customer carries the batch that wrote it last, whether that batch created it or updated it, and
an undo deletes the customers that carry the batch.  So it deletes those that the batch has created
exactly when the batch has been the last to write these and has not been the last to write another.
-/
import Mathlib.Data.Fin.VecNotation
import NexusEfos.Customers.Import
import NexusEfos.Library.History

namespace NexusEfos

open Proc

/-! ## The endpoint -/

/-- A row that a batch has written and that is not deleted. -/
def isOfBatch (batchId : Id) (importBatchId : Option Id) (deletedAt : Option DateTime) : Bool :=
  decide (importBatchId = some batchId) && deletedAt.isNone

def Customer.remove (now : DateTime) (c : Customer) : Customer :=
  { c with deletedAt := some now, archived := true }

/-- A customer after the undo of a batch. -/
def Customer.undo (batchId : Id) (now : DateTime) (c : Customer) : Customer :=
  if isOfBatch batchId c.importBatchId c.deletedAt then c.remove now else c

def undoCustomers (batchId : Id) (now : DateTime) : Handler ℕ :=
  updateManyAs { importsCustomer := some (.undo batchId) } .customer
    (fun _ c => isOfBatch batchId c.importBatchId c.deletedAt) (Customer.remove now)

def undoSavingsAccounts (batchId : Id) (now : DateTime) : Handler ℕ :=
  updateMany .savingsAccount (fun _ a => isOfBatch batchId a.importBatchId a.deletedAt) fun a =>
    { a with deletedAt := some now }

def undoLoans (batchId : Id) (now : DateTime) : Handler ℕ := do
  let loans ← findMany .loan fun _ l => isOfBatch batchId l.importBatchId l.deletedAt
  let loanIds := loans.map Prod.fst
  if loanIds.isEmpty then return 0
  else
    let _ ← updateMany .loanInstallment (fun _ i => i.loanId ∈ loanIds) fun i =>
      { i with deletedAt := some now }
    let _ ← updateMany .loanRepayment (fun _ r => r.loanId ∈ loanIds) fun r =>
      { r with deletedAt := some now }
    updateMany .loan (fun id _ => id ∈ loanIds) fun l =>
      { l with deletedAt := some now, status := .rejected }

def undoRows (entityType : ImportEntityType) (batchId : Id) (now : DateTime) : Handler ℕ :=
  match entityType with
  | .customer => undoCustomers batchId now
  | .savingsAccount => undoSavingsAccounts batchId now
  | .loan => undoLoans batchId now

/-- `POST /batches/:id/undo`. -/
def undoBatch (auth : Auth) (id : Id) (now : DateTime) : Handler ℕ := do
  let found ← findById .importBatch id fun b => b.institutionId = auth.institutionId
  let batch ← Proc.orFail found (.http 404 "Batch not found")
  Proc.require (batch.status ≠ .reversed) (.http 400 "This batch has already been reversed")
  Proc.require (batch.status ≠ .dryRun)
    (.http 400 "This batch was never committed — there's nothing to undo")
  let affectedCount ← undoRows batch.entityType id now
  let _ ← update .importBatch id fun b => { b with status := .reversed }
  let _ ← create .auditLog
    { institutionId := auth.institutionId, userId := some auth.userId,
      action := "migration.batch_undo", resource := "import_batch", resourceId := some id }
  return affectedCount

/-! ## What the batches have done -/

/-- A batch has created a customer, or updated one. -/
inductive ImportEvent
  | created (batchId customerId : Id)
  | updated (batchId customerId : Id)
  deriving DecidableEq

namespace ImportEvent

def batchId : ImportEvent → Id
  | created b _ | updated b _ => b

def customerId : ImportEvent → Id
  | created _ id | updated _ id => id

end ImportEvent

/-- The events of a statement. -/
def importEvents (lab : Access) (s t : Db) : List ImportEvent :=
  match lab.importsCustomer with
  | some (.create b) => if Db.Creates .customer s t then [.created b (s.nextId .customer)] else []
  | some (.update b id) => if (s.find? .customer id).isSome then [.updated b id] else []
  | _ => []

/-- The batch that has written a customer last. -/
def lastBatch (h : List ImportEvent) (customerId : Id) : Option Id :=
  (h.reverse.find? fun e => e.customerId = customerId).map ImportEvent.batchId

section LastBatch

variable {h : List ImportEvent} {e : ImportEvent} {id : Id}

theorem lastBatch_append_self (he : e.customerId = id) :
    lastBatch (h ++ [e]) id = some e.batchId := by
  have hfirst : (e :: h.reverse).find? (fun e => e.customerId = id) = some e :=
    List.find?_cons_of_pos (by simpa using he)
  rw [lastBatch, List.reverse_append, List.reverse_singleton, List.singleton_append, hfirst]
  rfl

theorem lastBatch_append_of_ne (he : e.customerId ≠ id) :
    lastBatch (h ++ [e]) id = lastBatch h id := by
  unfold lastBatch
  rw [List.reverse_append, List.reverse_singleton, List.singleton_append,
    List.find?_cons_of_neg (by simpa using he)]

end LastBatch

/-- Every customer carries the batch that has written it last, and one that a batch has created is
archived once it is deleted. -/
structure Db.CarriesBatches (s : Db) (h : List ImportEvent) : Prop where
  last : ∀ id c, s.find? .customer id = some c → c.importBatchId = lastBatch h id
  archived : ∀ b id c, .created b id ∈ h → s.find? .customer id = some c →
    c.deletedAt.isSome = true → c.archived = true

/-! ## What the statements do to the customers -/

/-- The data of an update leave a customer deleted or not, and archived or not. -/
def KeepsRemoval (f : Customer → Customer) : Prop :=
  ∀ c, (f c).deletedAt = c.deletedAt ∧ (f c).archived = c.archived

/-- What a statement does to the customers, according to its label. -/
def ImportStep (lab : Access) (s t : Db) : Prop :=
  match lab.importsCustomer with
  | none => s.Agree [.customer] t
  | some (.create b) => s.Agree [.customer] t ∨ ∃ c : Customer, c.importBatchId = some b ∧
      c.deletedAt = none ∧ t.table .customer = (s.insert .customer c).table .customer
  | some (.update b id) => ∃ f : Customer → Customer, KeepsRemoval f ∧
      (∀ c, (f c).importBatchId = some b) ∧
      ∀ id', t.find? .customer id' = (s.modify .customer id f).find? .customer id'
  | some (.undo b) => ∃ now,
      t.table .customer = (s.modifyAll .customer fun _ => Customer.undo b now).table .customer

theorem Customer.undo_of_not {batchId : Id} {now : DateTime} {c : Customer}
    (h : ¬ (c.importBatchId = some batchId ∧ c.deletedAt = none)) : c.undo batchId now = c := by
  apply if_neg
  rw [isOfBatch, Bool.and_eq_true, decide_eq_true_iff, Option.isNone_iff_eq_none]
  exact h

theorem Customer.undo_of {batchId : Id} {now : DateTime} {c : Customer}
    (hbatch : c.importBatchId = some batchId) (hlive : c.deletedAt = none) :
    c.undo batchId now = c.remove now := by
  apply if_pos
  rw [isOfBatch, Bool.and_eq_true, decide_eq_true_iff, Option.isNone_iff_eq_none]
  exact ⟨hbatch, hlive⟩

section Steps

variable {s t : Db} {h : List ImportEvent} {lab : Access}

theorem Db.CarriesBatches.of_same (hs : s.CarriesBatches h)
    (hsame : ∀ id, t.find? .customer id = s.find? .customer id) : t.CarriesBatches h where
  last := fun id c hc => hs.last id c (by rwa [hsame] at hc)
  archived := fun b id c he hc => hs.archived b id c he (by rwa [hsame] at hc)

/-- A batch creates a customer. -/
theorem Db.CarriesBatches.create (hs : s.CarriesBatches h) {b : Id} {c : Customer}
    (hbatch : c.importBatchId = some b) (hlive : c.deletedAt = none) :
    (s.insert .customer c).CarriesBatches (h ++ [.created b (s.nextId .customer)]) := by
  have hfind : ∀ id, (s.insert .customer c).find? .customer id =
      if id = s.nextId .customer then some c else s.find? .customer id :=
    fun id => Db.find?_insert s .customer c id
  constructor
  · intro id c' hc'
    rw [hfind] at hc'
    by_cases hid : id = s.nextId .customer
    · rw [if_pos hid] at hc'
      obtain rfl : c = c' := Option.some.inj hc'
      have hevent : (ImportEvent.created b (s.nextId .customer)).customerId = id := hid.symm
      rw [lastBatch_append_self hevent, hbatch]
      rfl
    · rw [if_neg hid] at hc'
      rw [lastBatch_append_of_ne (Ne.symm hid)]
      exact hs.last id c' hc'
  · intro b' id c' he hc' hdeleted
    rw [hfind] at hc'
    by_cases hid : id = s.nextId .customer
    · rw [if_pos hid] at hc'
      obtain rfl : c = c' := Option.some.inj hc'
      rw [hlive] at hdeleted
      exact absurd hdeleted (by decide)
    · rw [if_neg hid] at hc'
      rcases List.mem_append.mp he with hold | hnew
      · exact hs.archived b' id c' hold hc' hdeleted
      · have heq := List.mem_singleton.mp hnew
        exact absurd (congrArg ImportEvent.customerId heq) hid

/-- A batch updates a customer. -/
theorem Db.CarriesBatches.update (hs : s.CarriesBatches h) {b id : Id}
    {f : Customer → Customer} (hkeeps : KeepsRemoval f) (hbatch : ∀ c, (f c).importBatchId = some b) :
    (s.modify .customer id f).CarriesBatches (h ++ [.updated b id]) := by
  constructor
  · intro id' c' hc'
    rw [find?_modify] at hc'
    by_cases hid : id' = id
    · rw [if_pos hid] at hc'
      obtain ⟨c, -, rfl⟩ := Option.map_eq_some_iff.mp hc'
      have hevent : (ImportEvent.updated b id).customerId = id' := hid.symm
      rw [lastBatch_append_self hevent, hbatch]
      rfl
    · rw [if_neg hid] at hc'
      rw [lastBatch_append_of_ne (Ne.symm hid)]
      exact hs.last id' c' hc'
  · intro b' id' c' he hc' hdeleted
    have hold : .created b' id' ∈ h := by
      rcases List.mem_append.mp he with hold | hnew
      · exact hold
      · exact absurd (List.mem_singleton.mp hnew) nofun
    rw [find?_modify] at hc'
    by_cases hid : id' = id
    · rw [if_pos hid] at hc'
      obtain ⟨c, hc, rfl⟩ := Option.map_eq_some_iff.mp hc'
      rw [(hkeeps c).1] at hdeleted
      rw [(hkeeps c).2]
      exact hs.archived b' id' c hold hc hdeleted
    · rw [if_neg hid] at hc'
      exact hs.archived b' id' c' hold hc' hdeleted

/-- A batch is undone. -/
theorem Db.CarriesBatches.undo (hs : s.CarriesBatches h) (b : Id) (now : DateTime) :
    (s.modifyAll .customer fun _ => Customer.undo b now).CarriesBatches h := by
  constructor
  · intro id c' hc'
    rw [find?_modifyAll] at hc'
    obtain ⟨c, hc, rfl⟩ := Option.map_eq_some_iff.mp hc'
    rw [← hs.last id c hc]
    unfold Customer.undo
    split
    · rfl
    · rfl
  · intro b' id c' he hc' hdeleted
    rw [find?_modifyAll] at hc'
    obtain ⟨c, hc, rfl⟩ := Option.map_eq_some_iff.mp hc'
    by_cases hof : c.importBatchId = some b ∧ c.deletedAt = none
    · rw [Customer.undo_of hof.1 hof.2]
      rfl
    · rw [Customer.undo_of_not hof] at hdeleted ⊢
      exact hs.archived b' id c he hc hdeleted

theorem ImportStep.carriesBatches (hstep : ImportStep lab s t) (hs : s.CarriesBatches h) :
    t.CarriesBatches (h ++ importEvents lab s t) := by
  have hof : ∀ {u : Db}, t.table .customer = u.table .customer →
      ∀ id, t.find? .customer id = u.find? .customer id := by
    intro u hu id
    unfold Db.find?
    rw [hu]
  unfold ImportStep at hstep
  unfold importEvents
  cases hl : lab.importsCustomer with
  | none =>
    simp only [hl] at hstep ⊢
    rw [List.append_nil]
    exact hs.of_same (hstep.find? (by decide))
  | some move =>
    cases move with
    | create b =>
      simp only [hl] at hstep ⊢
      rcases hstep with hagree | ⟨c, hbatch, hlive, ht⟩
      · rw [if_neg (Db.not_creates (hagree _ (by decide))), List.append_nil]
        exact hs.of_same (hagree.find? (by decide))
      · rw [if_pos (Db.creates_insert ht)]
        exact (hs.create hbatch hlive).of_same (hof ht)
    | update b id =>
      simp only [hl] at hstep ⊢
      obtain ⟨f, hkeeps, hbatch, ht⟩ := hstep
      by_cases hthere : (s.find? .customer id).isSome = true
      · rw [if_pos hthere]
        exact (hs.update hkeeps hbatch).of_same ht
      · rw [if_neg hthere, List.append_nil]
        rw [Option.not_isSome_iff_eq_none] at hthere
        apply hs.of_same
        intro id'
        rw [ht, Db.find?_modify]
        split
        · next hid => rw [hid, hthere, Option.map_none]
        · rfl
    | undo b =>
      simp only [hl] at hstep ⊢
      obtain ⟨now, ht⟩ := hstep
      rw [List.append_nil]
      exact (hs.undo b now).of_same (hof ht)

end Steps

/-! ## What the calls do -/

namespace ImportStep

variable {s t : Db} {lab : Access} {m : Model}

theorem of_agree (hl : lab.importsCustomer = none) (h : s.Agree [.customer] t) :
    ImportStep lab s t := by
  unfold ImportStep
  rw [hl]
  exact h

theorem read (s : Db) : ImportStep {} s s := of_agree rfl (Db.Agree.refl s)

theorem of_spares {α : Type} {p : Handler α}
    (hp : Spares (fun lab => lab.importsCustomer = none) [.customer] p) :
    p.EveryStep ImportStep :=
  EveryStep.imp hp fun _ _ _ h => of_agree h.1 h.2

theorem createAs (hl : lab.importsCustomer = none) (hm : m ∉ [Model.customer]) (row : Row m) :
    (createAs lab m row).EveryStep ImportStep :=
  ⟨fun s => of_agree hl (Db.Agree.insert hm s row), fun _ => trivial⟩

theorem update (hm : m ∉ [Model.customer]) (id : Id) (data : Row m → Row m) :
    (update m id data).EveryStep ImportStep := by
  refine ⟨fun s => ?_, fun _ => trivial⟩
  cases hrow : s.find? m id with
  | some row =>
    simp only [hrow]
    exact of_agree rfl (Db.Agree.modify hm s id data)
  | none =>
    simp only [hrow]
    exact read s

theorem updateMany (hm : m ∉ [Model.customer]) (p : Id → Row m → Bool) (data : Row m → Row m) :
    (updateMany m p data).EveryStep ImportStep :=
  ⟨fun s => of_agree rfl (Db.Agree.modifyAll hm s _), fun _ => trivial⟩

/-- A row creates a customer, if the phone number is free. -/
theorem createCustomerRow {b : Id} {risk : Option RiskWrite} {c : Customer}
    (hbatch : c.importBatchId = some b) (hlive : c.deletedAt = none) :
    (createCustomerRowAs { risk, importsCustomer := some (.create b) } c).EveryStep ImportStep := by
  refine ⟨fun s => ?_, fun _ => trivial⟩
  dsimp only
  split
  · exact .inl (Db.Agree.refl s)
  · exact .inr ⟨c, hbatch, hlive, rfl⟩

/-- A row updates a customer. -/
theorem updateFromRow (b : Id) (row : CustomerRow) (branchId : Option Id) (customerId : Id) :
    (updateFromRow b row branchId customerId).EveryStep ImportStep := by
  apply EveryStep.bind
  · refine ⟨fun s => ?_, fun _ => trivial⟩
    refine ⟨fun c => { row.commonData branchId c with importBatchId := some b },
      fun _ => ⟨rfl, rfl⟩, fun _ => rfl, fun id => ?_⟩
    cases hrow : s.find? .customer customerId with
    | some c => simp only [hrow]
    | none =>
      simp only [hrow]
      rw [Db.find?_modify]
      split
      · next hid => rw [hid, hrow, Option.map_none]
      · rfl
  · exact fun _ => trivial

theorem commitCustomers (trimLower : String → String) (toText : ℚ → String) (auth : Auth)
    (customerNumber : CustomerRow → String) (resolutions : String → Option DuplicateResolution)
    (parsed : CustomerWorkbook) (now : DateTime) :
    (commitCustomers trimLower toText auth customerNumber resolutions parsed now).EveryStep
      ImportStep := by
  apply everyStep_commitCustomers read
  · intro batchId number r
    apply everyStep_importCustomer read
    · exact createCustomerRow rfl rfl
    · exact updateFromRow batchId r.data r.branchId
  · exact update (by decide)
  · intro customerId row _
    exact createAs rfl (by decide) _
  · intro m row hm
    have hne : m ∉ [Model.customer] := by
      revert hm
      cases m <;> decide
    exact createAs rfl hne row

theorem undoRows (entityType : ImportEntityType) (batchId : Id) (now : DateTime) :
    (undoRows entityType batchId now).EveryStep ImportStep := by
  cases entityType with
  | customer => exact ⟨fun s => ⟨now, rfl⟩, fun _ => trivial⟩
  | savingsAccount => exact updateMany (by decide) _ _
  | loan =>
    refine ⟨read, fun loans => ?_⟩
    show (if (loans.map Prod.fst).isEmpty then pure 0 else _ : Handler ℕ).EveryStep ImportStep
    split
    · trivial
    · apply (updateMany (by decide) _ _).bind
      intro _
      apply (updateMany (by decide) _ _).bind
      exact fun _ => updateMany (by decide) _ _

theorem undoBatch (auth : Auth) (id : Id) (now : DateTime) :
    (undoBatch auth id now).EveryStep ImportStep := by
  refine ⟨read, fun found => ?_⟩
  apply (EveryStep.orFail _ _).bind
  intro batch
  apply EveryStep.require_bind
  intro _
  apply EveryStep.require_bind
  intro _
  apply (undoRows _ _ _).bind
  intro _
  apply (update (by decide) _ _).bind
  intro _
  exact (createAs rfl (by decide) _).bind fun _ => trivial

end ImportStep

/-! ## Runs -/

/-- The calls of a run.  The last constructor stands for the endpoints that leave the customers
alone. -/
inductive BatchCall
  | commit (trimLower : String → String) (toText : ℚ → String) (auth : Auth)
    (customerNumber : CustomerRow → String) (resolutions : String → Option DuplicateResolution)
    (parsed : CustomerWorkbook) (now : DateTime)
  | undo (auth : Auth) (id : Id) (now : DateTime)
  | other (p : Handler Unit) (h : Spares (fun lab => lab.importsCustomer = none) [.customer] p)

def BatchCall.handler : BatchCall → Handler Unit
  | commit trimLower toText auth customerNumber resolutions parsed now => do
    let _ ← commitCustomers trimLower toText auth customerNumber resolutions parsed now
  | undo auth id now => do
    let _ ← undoBatch auth id now
  | other p _ => p

theorem BatchCall.everyStep (call : BatchCall) : call.handler.EveryStep ImportStep := by
  cases call with
  | commit trimLower toText auth customerNumber resolutions parsed now =>
    exact (ImportStep.commitCustomers ..).bind fun _ => trivial
  | undo auth id now => exact (ImportStep.undoBatch auth id now).bind fun _ => trivial
  | other p h => exact ImportStep.of_spares h

section Runs

variable {ι : Type} [DecidableEq ι]

def batchPool (calls : ι → BatchCall) (s : Db) : Pool ι Access Db Failure Unit :=
  ⟨fun i => (calls i).handler, s⟩

/-- No customer has been written by a batch. -/
def Db.Unimported (s : Db) : Prop :=
  ∀ c ∈ (s.table .customer).values, c.importBatchId = none

instance (s : Db) : Decidable s.Unimported :=
  inferInstanceAs (Decidable (∀ c ∈ (s.table .customer).values, _))

/-- After every schedule the customers carry the batches of its events. -/
theorem batchPool_carries (calls : ι → BatchCall) {s : Db} (hstart : s.Unimported)
    (sched : List ι) : ((batchPool calls s).run sched).state.CarriesBatches
      ((batchPool calls s).history importEvents sched) := by
  have hbefore : s.CarriesBatches [] := by
    constructor
    · intro id c hc
      exact hstart c (OrderedMap.mem_values.mpr ⟨id, hc⟩)
    · exact fun _ _ _ he => absurd he List.not_mem_nil
  have hend : ((batchPool calls s).run sched).state.CarriesBatches
      ([] ++ (batchPool calls s).history importEvents sched) :=
    Pool.run_history (D := ImportStep) (J := Db.CarriesBatches)
      (fun lab u v h hstep _ hu => hstep.carriesBatches hu) (fun i => (calls i).everyStep) hbefore (Pool.allowedAfter_true [] (batchPool calls s) sched)
  exact hend

end Runs

/-! ## An undo -/

/-- What the undo of a batch is to do: the customers whom the batch has created are deleted and
archived, and everyone else stays as it was. -/
def Db.UndoesExactly (created : Id → Prop) (s t : Db) : Prop :=
  ∀ id c, s.find? .customer id = some c →
    (created id → ∃ c', t.find? .customer id = some c' ∧ c'.deletedAt.isSome = true ∧
      c'.archived = true) ∧
    (¬ created id → t.find? .customer id = some c)

/-- The batch has written those customers last whom it has created, of those who are not
deleted. -/
def Db.LastWrites (s : Db) (h : List ImportEvent) (batchId : Id) : Prop :=
  ∀ e ∈ (s.table .customer).entries, e.2.deletedAt = none →
    (lastBatch h e.1 = some batchId ↔ .created batchId e.1 ∈ h)

instance (s : Db) (h : List ImportEvent) (batchId : Id) : Decidable (s.LastWrites h batchId) :=
  inferInstanceAs (Decidable (∀ e ∈ (s.table .customer).entries, _))

/-- The customers after an undo. -/
theorem run_undoBatch_customer {auth : Auth} {batchId : Id} {now : DateTime} {s t : Db} {n : ℕ}
    (hbatch : ∃ batch ∈ s.find? .importBatch batchId, batch.entityType = .customer)
    (hrun : (undoBatch auth batchId now).run s = (.ok n, t)) (id : Id) :
    t.find? .customer id = (s.find? .customer id).map (Customer.undo batchId now) := by
  obtain ⟨batch, hbatch, hentity⟩ := hbatch
  obtain ⟨found, hfound, hrun⟩ := run_orFail_bind_eq_ok hrun
  obtain ⟨hread, -⟩ := Option.filter_eq_some_iff.mp hfound
  obtain rfl : batch = found := Option.some.inj ((Option.mem_def.mp hbatch).symm.trans hread)
  obtain ⟨-, hrun⟩ := run_require_bind_eq_ok hrun
  obtain ⟨-, hrun⟩ := run_require_bind_eq_ok hrun
  rw [hentity] at hrun
  obtain ⟨count, u, hrows, hrun⟩ := run_bind_eq_ok hrun
  obtain ⟨_, -, hrun⟩ := run_updateAs_bind_eq_ok hrun
  obtain ⟨_, v, hcreate, hrun⟩ := run_bind_eq_ok hrun
  obtain ⟨-, rfl⟩ := run_create_eq_ok hcreate
  obtain ⟨-, rfl⟩ := Prod.mk.inj hrun
  obtain ⟨-, rfl⟩ := Prod.mk.inj hrows
  rw [Db.find?_insert_of_ne (by decide), Db.find?_modify_of_ne (by decide), Db.find?_modifyAll]
  rfl

/-- An undo deletes those whom its batch has created exactly when they are those whom it has
written last. -/
theorem undo_exact_iff {s t : Db} {h : List ImportEvent} {batchId : Id} {now : DateTime}
    (hs : s.CarriesBatches h) (ht : ∀ id, t.find? .customer id =
      (s.find? .customer id).map (Customer.undo batchId now)) :
    s.UndoesExactly (fun id => .created batchId id ∈ h) t ↔ s.LastWrites h batchId := by
  have hkept : ∀ {id c}, s.find? .customer id = some c → t.find? .customer id =
      some (c.undo batchId now) := by
    intro id c hc
    rw [ht, hc, Option.map_some]
  constructor
  · rintro hexact ⟨id, c⟩ hentry hlive
    have hc : s.find? .customer id = some c := OrderedMap.get?_eq_some.mpr hentry
    rw [← hs.last id c hc]
    obtain ⟨hremoved, hothers⟩ := hexact id c hc
    constructor
    · intro hbatch
      by_contra hnot
      have hsame := hothers hnot
      rw [hkept hc, Customer.undo_of hbatch hlive] at hsame
      have hdeleted := congrArg Customer.deletedAt (Option.some.inj hsame)
      rw [hlive] at hdeleted
      exact absurd hdeleted nofun
    · intro hcreated
      by_contra hnot
      obtain ⟨c', hc', hdeleted, -⟩ := hremoved hcreated
      rw [hkept hc, Customer.undo_of_not fun hof => hnot hof.1] at hc'
      rw [← Option.some.inj hc', hlive] at hdeleted
      exact absurd hdeleted (by decide)
  · intro hlast id c hc
    rw [hkept hc]
    by_cases hlive : c.deletedAt = none
    · have hiff := hlast (id, c) (OrderedMap.get?_eq_some.mp hc) hlive
      rw [← hs.last id c hc] at hiff
      constructor
      · intro hcreated
        exact ⟨_, rfl, by rw [Customer.undo_of (hiff.mpr hcreated) hlive]; exact ⟨rfl, rfl⟩⟩
      · intro hnot
        rw [Customer.undo_of_not fun hof => hnot (hiff.mp hof.1)]
    · rw [Customer.undo_of_not fun hof => hlive hof.2]
      have hdeleted : c.deletedAt.isSome = true := Option.isSome_iff_ne_none.mpr hlive
      exact ⟨fun hcreated => ⟨c, rfl, hdeleted, hs.archived batchId id c hcreated hc hdeleted⟩,
        fun _ => rfl⟩

section Runs

variable {ι : Type} [DecidableEq ι]

/-- After any schedule of imports and undos, an undo deletes exactly those whom its batch has
created if and only if the batch has been the last to write these, and no others. -/
theorem undo_removes_created_iff (calls : ι → BatchCall) (s : Db) (sched : List ι)
    (hstart : s.Unimported) {auth : Auth} {batchId : Id} {now : DateTime} {n : ℕ} {t : Db}
    (hbatch : ∃ batch ∈ ((batchPool calls s).run sched).state.find? .importBatch batchId,
      batch.entityType = .customer)
    (hundo : (undoBatch auth batchId now).run ((batchPool calls s).run sched).state = (.ok n, t)) :
    Db.UndoesExactly
        (fun id => .created batchId id ∈ (batchPool calls s).history importEvents sched)
        ((batchPool calls s).run sched).state t ↔
      ((batchPool calls s).run sched).state.LastWrites
        ((batchPool calls s).history importEvents sched) batchId :=
  undo_exact_iff (batchPool_carries calls hstart sched)
    (run_undoBatch_customer hbatch hundo)

end Runs

/-! ## A file with a customer who is there -/

/-- A customer who came to the branch. -/
def registered : Db :=
  (Db.empty.insert .branch { institutionId := 1, name := "main", code := "MAIN" }).insert .customer
    { institutionId := 1, profile := { fullName := "Ama Mensah", phone := "0244111221" },
      status := .active, kycStatus := .verified }

/-- A file with this customer and a new one. -/
def migrationFile : CustomerWorkbook :=
  { customers :=
      [{ rowNumber := 2, fullName := "Ama Mensah", phone := "0244111221", segment := "INDIVIDUAL",
         branch := "main" },
       { rowNumber := 3, fullName := "Kofi Mensah", phone := "0244111223", segment := "INDIVIDUAL",
         branch := "main" }] }

/-- The file is committed, with an answer to the question what is to be done about the first. -/
def migrationCalls (answer : DuplicateResolution) (_ : Fin 1) : BatchCall :=
  .commit id toString ⟨1, 1⟩ (fun row => row.phone) (fun _ => some answer) migrationFile 10

/-- After the file has been committed. -/
def migrated (answer : DuplicateResolution) : Db :=
  ((batchPool (migrationCalls answer) registered).run (List.replicate 7 0)).state

/-- What the batch has done. -/
def migration (answer : DuplicateResolution) : List ImportEvent :=
  (batchPool (migrationCalls answer) registered).history importEvents (List.replicate 7 0)

/-- After the undo. -/
def unmigrated (answer : DuplicateResolution) : Except Failure ℕ × Db :=
  (undoBatch ⟨1, 1⟩ 1 20).run (migrated answer)

theorem unmigrated_ok (answer : DuplicateResolution) : ∃ n, (unmigrated answer).1 = .ok n := by
  have hok : (unmigrated answer).1.toBool = true := by cases answer <;> decide +kernel
  cases hrun : (unmigrated answer).1 with
  | ok n => exact ⟨n, rfl⟩
  | error e =>
    rw [hrun] at hok
    exact absurd hok nofun

theorem undo_removes_created_iff_skipped :
    Db.UndoesExactly (fun id => .created 1 id ∈ migration .skip) (migrated .skip)
      (unmigrated .skip).2 := by
  obtain ⟨n, hok⟩ := unmigrated_ok .skip
  exact (undo_removes_created_iff (migrationCalls .skip) registered (List.replicate 7 0)
    (by decide) (by decide +kernel) (Prod.ext hok rfl)).mpr (by decide +kernel)

/-- The customer was there before the file that updated her, and is deleted by its undo. -/
theorem undo_removes_updated :
    (registered.find? .customer 1).isSome = true ∧
      (∃ c ∈ (unmigrated .update).2.find? .customer 1, c.deletedAt = some 20 ∧ c.archived = true) ∧
      ¬ Db.UndoesExactly (fun id => .created 1 id ∈ migration .update) (migrated .update)
        (unmigrated .update).2 := by
  refine ⟨rfl, by decide +kernel, fun hexact => ?_⟩
  obtain ⟨n, hok⟩ := unmigrated_ok .update
  have hundone := run_undoBatch_customer (by decide +kernel) (Prod.ext hok rfl)
  have hcarries := batchPool_carries (migrationCalls .update) (s := registered) (by decide)
    (List.replicate 7 0)
  have hlast := (undo_exact_iff hcarries hundone).mp hexact
  exact absurd hlast (by decide +kernel)

end NexusEfos
