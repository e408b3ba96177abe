/-
Merging customers: `lib/customerMerge.ts` and the merge requests of `routes/customer.routes.ts`.

The rows of ten models move to the primary customer, and the merged one points to it.  A rollback
gives the rows back that the merge has listed.  Four other models refer to a customer as well, and
whether the two customers of a request are still there to be merged is looked at when it is filed
and not when it is approved.
-/
import NexusEfos.Approvals.Requests

namespace NexusEfos

/-! ## Whose a row is -/

/-- The customer of a row. -/
def customerIdOf : (m : Model) → Row m → Option Id
  | .nextOfKin, (r : CustomerReference) => some r.customerId
  | .customerNote, (r : CustomerReference) => some r.customerId
  | .beneficiary, (r : Beneficiary) => some r.customerId
  | .beneficialOwner, (r : CustomerReference) => some r.customerId
  | .loan, (r : Loan) => some r.customerId
  | .savingsAccount, (r : SavingsAccount) => some r.customerId
  | .accountHolder, (r : AccountHolder) => some r.customerId
  | .document, (r : CustomerReference) => some r.customerId
  | .collectionRouteCustomer, (r : CollectionRouteCustomer) => some r.customerId
  | .collectionTransaction, (r : CollectionTransaction) => some r.customerId
  | .customerConsent, (r : CustomerReference) => some r.customerId
  | .cheque, (r : CustomerReference) => some r.customerId
  | .customerInteraction, (r : CustomerReference) => some r.customerId
  | .customerComplaint, (r : CustomerReference) => some r.customerId
  | _, _ => none

/-- `{ customerId }`, as the data of an update. -/
def setCustomerId : (m : Model) → Id → Row m → Row m
  | .nextOfKin, id, (_ : CustomerReference) => (⟨id⟩ : CustomerReference)
  | .customerNote, id, (_ : CustomerReference) => (⟨id⟩ : CustomerReference)
  | .beneficiary, id, (r : Beneficiary) => { r with customerId := id }
  | .beneficialOwner, id, (_ : CustomerReference) => (⟨id⟩ : CustomerReference)
  | .loan, id, (r : Loan) => { r with customerId := id }
  | .savingsAccount, id, (r : SavingsAccount) => { r with customerId := id }
  | .accountHolder, id, (r : AccountHolder) => { r with customerId := id }
  | .document, id, (_ : CustomerReference) => (⟨id⟩ : CustomerReference)
  | .collectionRouteCustomer, id, (r : CollectionRouteCustomer) => { r with customerId := id }
  | .collectionTransaction, id, (r : CollectionTransaction) => { r with customerId := id }
  | .customerConsent, id, (_ : CustomerReference) => (⟨id⟩ : CustomerReference)
  | .cheque, id, (_ : CustomerReference) => (⟨id⟩ : CustomerReference)
  | .customerInteraction, id, (_ : CustomerReference) => (⟨id⟩ : CustomerReference)
  | .customerComplaint, id, (_ : CustomerReference) => (⟨id⟩ : CustomerReference)
  | _, _, r => r

/-- `CUSTOMER_REFERENCING_MODELS`. -/
def customerReferencingModels : List Model :=
  [.nextOfKin, .customerNote, .beneficiary, .beneficialOwner, .loan, .savingsAccount,
    .accountHolder, .document, .collectionRouteCustomer, .collectionTransaction]

/-- The models that refer to a customer and are not in that list. -/
def forgottenModels : List Model := [.customerConsent, .cheque, .customerInteraction, .customerComplaint]

/-- The customer of the row under a key. -/
def Db.ownerOf (s : Db) (m : Model) (id : Id) : Option Id := (s.find? m id).bind (customerIdOf m)

/-! ## The endpoints -/

/-- A customer of the institution who has not been merged. -/
def findActiveCustomer (auth : Auth) (customerId : Id) : Handler (Option Customer) :=
  findById .customer customerId fun c =>
    c.institutionId = auth.institutionId && c.mergeStatus = .active

/-- `POST /merge-requests`. -/
def requestMerge (auth : Auth) (primaryCustomerId mergedCustomerId : Id) : Handler Id := do
  Proc.require (primaryCustomerId ≠ mergedCustomerId)
    (.http 400 "primaryCustomerId and mergedCustomerId must differ")
  let primary ← findActiveCustomer auth primaryCustomerId
  let merged ← findActiveCustomer auth mergedCustomerId
  Proc.require (primary.isSome = true ∧ merged.isSome = true)
    (.http 404 "Both customers must exist and not already be merged")
  let mergeRecord ← create .customerMergeRecord
    { institutionId := auth.institutionId, primaryCustomerId, mergedCustomerId }
  let _ ← create .approvalRequest
    { institutionId := auth.institutionId, type := .customerMerge,
      targetType := "CustomerMergeRecord", targetId := mergeRecord, requestedById := auth.userId }
  let _ ← create .auditLog
    { institutionId := auth.institutionId, userId := some auth.userId,
      action := "customer_merge.requested", resource := "customer_merge_record",
      resourceId := some mergeRecord }
  return mergeRecord

/-- `rollbackCustomerMerge`. -/
def rollbackCustomerMerge (mergedCustomerId : Id) (reassignedRecords : List (Model × Id)) :
    Handler Unit := do
  Proc.forEach reassignedRecords fun record => do
    let _ ← update record.1 record.2 (setCustomerId record.1 mergedCustomerId)
  let _ ← update .customer mergedCustomerId fun c =>
    { c with mergeStatus := .active, mergedIntoCustomerId := none }

/-- The body of the transaction of a rollback. -/
def rollbackInTx (auth : Auth) (now : DateTime) (recordId : Id) (reason : String)
    (mergedCustomerId : Id) (reassignedRecords : List (Model × Id)) : Handler Unit := do
  rollbackCustomerMerge mergedCustomerId reassignedRecords
  let _ ← update .customerMergeRecord recordId fun r =>
    { r with status := .rolledBack, rolledBackById := some auth.userId, rolledBackAt := some now,
             rollbackReason := some reason }

/-- `POST /merge-requests/:id/rollback`. -/
def rollbackMerge (auth : Auth) (now : DateTime) (recordId : Id) (reason : Option String) :
    Handler Unit := do
  let reason ← Proc.orFail (reason.filter fun text => text ≠ "")
    (.http 400 "A reason is required to roll back a merge")
  let found ← findById .customerMergeRecord recordId fun r =>
    r.institutionId = auth.institutionId && r.status = .approved
  let record ← Proc.orFail found (.http 404 "Approved merge record not found")
  let reassignedRecords ← Proc.orFail record.reassignedRecords
    (.http 400 "No reassignment record found to roll back")
  let outcome ← Proc.outcome (Proc.transaction {}
    (rollbackInTx auth now recordId reason record.mergedCustomerId reassignedRecords))
  Proc.require (outcome.toBool = true) (.http 500 "Rollback failed, nothing was changed")
  let _ ← create .auditLog
    { institutionId := auth.institutionId, userId := some auth.userId,
      action := "customer_merge.rolled_back", resource := "customer_merge_record",
      resourceId := some recordId }

/-! ## What a merge does -/

/-- A row of the merged customer moves to the primary one. -/
def moveRow (m : Model) (primary merged : Id) (_id : Id) (row : Row m) : Row m :=
  if customerIdOf m row = some merged then setCustomerId m primary row else row

/-- The rows of some models move. -/
def Db.moveRows (ms : List Model) (primary merged : Id) (s : Db) : Db :=
  ms.foldl (fun s m => s.modifyAll m (moveRow m primary merged)) s

/-- The keys of the rows of a customer. -/
def Db.rowsOfCustomer (s : Db) (customerId : Id) (m : Model) : List (Model × Id) :=
  ((s.table m).entries.filter fun e => customerIdOf m e.2 = some customerId).map fun e => (m, e.1)

/-- The rows that a merge moves. -/
def Db.mergedRows (s : Db) (merged : Id) : List (Model × Id) :=
  customerReferencingModels.flatMap (s.rowsOfCustomer merged)

/-- The merged customer points to the primary one. -/
def Customer.mergeInto (primary : Id) (c : Customer) : Customer :=
  { c with mergeStatus := .merged, mergedIntoCustomerId := some primary }

/-- The database after a merge. -/
def Db.merge (s : Db) (primary merged : Id) : Db :=
  (s.moveRows customerReferencingModels primary merged).modify .customer merged
    (Customer.mergeInto primary)

section Run

variable {s t : Db} {primary merged : Id}

theorem table_moveRows (ms : List Model) (hms : ms.Nodup) (primary merged : Id) (s : Db)
    (m : Model) :
    (s.moveRows ms primary merged).table m =
      if m ∈ ms then (s.table m).updateAll (moveRow m primary merged) else s.table m := by
  induction ms generalizing s with
  | nil => rfl
  | cons m' ms ih =>
    obtain ⟨hm', hms⟩ := List.nodup_cons.mp hms
    show (Db.moveRows ms primary merged (s.modifyAll m' (moveRow m' primary merged))).table m = _
    rw [ih hms]
    by_cases hm : m = m'
    · subst hm
      rw [if_neg hm', if_pos (List.mem_cons_self ..), Db.table_modifyAll_self]
    · rw [Db.table_modifyAll_of_ne hm]
      by_cases hmem : m ∈ ms
      · rw [if_pos hmem, if_pos (List.mem_cons_of_mem m' hmem)]
      · rw [if_neg hmem, if_neg (by simp [hm, hmem])]

theorem mem_rowsOfCustomer {m m' : Model} {id customerId : Id} :
    (m, id) ∈ s.rowsOfCustomer customerId m' ↔ m = m' ∧ s.ownerOf m id = some customerId := by
  unfold Db.rowsOfCustomer Db.ownerOf
  constructor
  · intro h
    obtain ⟨e, he, heq⟩ := List.mem_map.mp h
    obtain ⟨rfl, rfl⟩ := Prod.mk.inj heq
    obtain ⟨hmem, howner⟩ := List.mem_filter.mp he
    have hrow : s.find? m' e.1 = some e.2 := OrderedMap.get?_eq_some.mpr hmem
    rw [hrow]
    exact ⟨rfl, of_decide_eq_true howner⟩
  · rintro ⟨rfl, howner⟩
    obtain ⟨row, hrow, hcustomer⟩ := Option.bind_eq_some_iff.mp howner
    have hmem : (id, row) ∈ (s.table m).entries := OrderedMap.get?_eq_some.mp hrow
    exact List.mem_map.mpr ⟨(id, row), List.mem_filter.mpr ⟨hmem, decide_eq_true hcustomer⟩, rfl⟩

/-- Nothing moves where the merged customer has no rows. -/
theorem modifyAll_moveRow_of_rowsOfCustomer_eq_nil {m : Model} (h : s.rowsOfCustomer merged m = []) :
    s.modifyAll m (moveRow m primary merged) = s := by
  have hself : (s.table m).updateAll (moveRow m primary merged) = s.table m := by
    apply OrderedMap.updateAll_eq_self
    intro id row hrow
    have hnot : ¬ customerIdOf m row = some merged := by
      intro howner
      have hmem : (m, id) ∈ s.rowsOfCustomer merged m :=
        List.mem_map.mpr ⟨(id, row), List.mem_filter.mpr ⟨hrow, decide_eq_true howner⟩, rfl⟩
      rw [h] at hmem
      exact absurd hmem List.not_mem_nil
    exact if_neg hnot
  rw [Db.modifyAll, hself, Db.setTable_self]

/-- One model of a merge. -/
theorem run_reassign {m : Model} {customerId : Row m → Id} {set : Id → Row m → Row m}
    (hm : ∀ id row, customerIdOf m row = some (customerId row) ∧
      setCustomerId m id row = set id row) (primary merged : Id) (s : Db) :
    (reassign m customerId set primary merged).run s =
      (.ok (s.rowsOfCustomer merged m), s.modifyAll m (moveRow m primary merged)) := by
  have hsame : ∀ row, decide (customerId row = merged) =
      decide (customerIdOf m row = some merged) := by
    intro row
    rw [(hm merged row).1, decide_eq_decide, Option.some_inj]
  have hmove : (fun (_ : Id) row => if decide (customerId row = merged) = true then set primary row
      else row) = moveRow m primary merged := by
    funext id row
    unfold moveRow
    simp only [hsame, decide_eq_true_eq, (hm primary row).2]
  unfold reassign
  rw [Proc.run_bind, run_findMany]
  dsimp only
  simp only [hsame]
  by_cases hnone : ((s.table m).entries.filter fun e =>
      decide (customerIdOf m e.2 = some merged)).isEmpty = true
  · have hrows : s.rowsOfCustomer merged m = [] := by
      rw [Db.rowsOfCustomer, List.isEmpty_iff.mp hnone]
      rfl
    rw [if_pos hnone, modifyAll_moveRow_of_rowsOfCustomer_eq_nil hrows, hrows]
    rfl
  · rw [if_neg hnone, ← hmove]
    simp only [hsame]
    rfl

theorem rowsOfCustomer_moveRows {ms : List Model} (hms : ms.Nodup) {m : Model} (hm : m ∉ ms)
    (s : Db) (customerId : Id) :
    (s.moveRows ms primary merged).rowsOfCustomer customerId m = s.rowsOfCustomer customerId m := by
  unfold Db.rowsOfCustomer
  rw [table_moveRows ms hms, if_neg hm]

theorem moveRows_append (ms : List Model) (m : Model) (s : Db) :
    (s.moveRows ms primary merged).modifyAll m (moveRow m primary merged) =
      s.moveRows (ms ++ [m]) primary merged := by
  unfold Db.moveRows
  rw [List.foldl_append]
  rfl

/-- One more model of a merge. -/
theorem run_reassign_next {α : Type} {ms : List Model} {m : Model} (hms : (ms ++ [m]).Nodup)
    {customerId : Row m → Id} {set : Id → Row m → Row m}
    (hm : ∀ id row, customerIdOf m row = some (customerId row) ∧
      setCustomerId m id row = set id row)
    (k : List (Model × Id) → Handler α) :
    (reassign m customerId set primary merged >>= k).run (s.moveRows ms primary merged) =
      (k (s.rowsOfCustomer merged m)).run (s.moveRows (ms ++ [m]) primary merged) := by
  have hnew : m ∉ ms := fun hmem => List.nodup_append.mp hms |>.2.2 m hmem m (List.mem_singleton_self m) rfl
  rw [Proc.run_bind, run_reassign hm, rowsOfCustomer_moveRows (List.nodup_append.mp hms).1 hnew,
    moveRows_append]

/-- What a merge that succeeds has done. -/
theorem run_executeCustomerMerge_eq_ok {moved : List (Model × Id)}
    (h : (executeCustomerMerge primary merged).run s = (.ok moved, t)) :
    moved = s.mergedRows merged ∧ (s.find? .customer merged).isSome = true ∧
      t = s.merge primary merged := by
  have hstart : s = s.moveRows [] primary merged := rfl
  rw [hstart] at h
  unfold executeCustomerMerge at h
  iterate 10 rw [run_reassign_next] at h
  any_goals exact fun _ _ => ⟨rfl, rfl⟩
  any_goals decide
  obtain ⟨c, hc, h⟩ := run_updateAs_bind_eq_ok h
  obtain ⟨hmoved, ht⟩ := Prod.mk.inj h
  refine ⟨?_, ?_, ht.symm⟩
  · rw [← Except.ok.inj hmoved]
    simp only [Db.mergedRows, customerReferencingModels, List.flatMap_cons, List.flatMap_nil,
      List.append_nil, List.append_assoc]
  · have hcustomers : (s.moveRows customerReferencingModels primary merged).table .customer =
        s.table .customer := by
      rw [table_moveRows _ (by decide), if_neg (by decide)]
    rw [Db.find?, ← hcustomers]
    exact Option.isSome_iff_exists.mpr ⟨c, hc⟩

theorem customerIdOf_setCustomerId (m : Model) (id : Id) (row : Row m) :
    customerIdOf m (setCustomerId m id row) = (customerIdOf m row).map fun _ => id := by
  cases m <;> rfl

/-- Whose the rows are after they have moved. -/
theorem ownerOf_moveRows {ms : List Model} (hms : ms.Nodup) (m : Model) (id : Id) :
    (s.moveRows ms primary merged).ownerOf m id =
      if m ∈ ms ∧ s.ownerOf m id = some merged then some primary else s.ownerOf m id := by
  unfold Db.ownerOf Db.find?
  rw [table_moveRows ms hms]
  by_cases hm : m ∈ ms
  · rw [if_pos hm, OrderedMap.get?_updateAll]
    cases hrow : (s.table m).get? id with
    | none => simp
    | some row =>
      rw [Option.map_some, Option.bind_some, Option.bind_some, moveRow]
      by_cases howner : customerIdOf m row = some merged
      · rw [if_pos howner, if_pos ⟨hm, howner⟩, customerIdOf_setCustomerId, howner]
        rfl
      · rw [if_neg howner, if_neg fun h => howner h.2]
  · rw [if_neg hm, if_neg fun h => hm h.1]

/-- An approval of a merge that succeeds. -/
theorem run_mergeCustomers_eq_ok {now : DateTime} {approvedById targetId : Id} {u : Unit}
    (h : (mergeCustomers now approvedById targetId).run s = (.ok u, t)) :
    ∃ r, s.find? .customerMergeRecord targetId = some r ∧
      (s.find? .customer r.mergedCustomerId).isSome = true ∧
      t = (s.merge r.primaryCustomerId r.mergedCustomerId).modify .customerMergeRecord targetId
        fun record => { record with
          status := .approved, approvedById := some approvedById, mergedAt := some now,
          reassignedRecords := some (s.mergedRows r.mergedCustomerId) } := by
  obtain ⟨r, hr, h⟩ := run_findUniqueOrThrow_bind_eq_ok h
  obtain ⟨moved, s', hmerge, h⟩ := Proc.run_bind_eq_ok h
  obtain ⟨rfl, hcustomer, rfl⟩ := run_executeCustomerMerge_eq_ok hmerge
  exact ⟨r, hr, hcustomer, run_update_end_eq_ok h⟩

theorem table_merge_of_mem {m : Model} (hm : m ∈ customerReferencingModels) :
    (s.merge primary merged).table m = (s.table m).updateAll (moveRow m primary merged) := by
  have hne : m ≠ .customer := by
    rintro rfl
    exact absurd hm (by decide)
  rw [Db.merge, Db.table_modify_of_ne hne, table_moveRows _ (by decide), if_pos hm]

theorem table_merge_of_not_mem {m : Model} (hm : m ∉ Model.customer :: customerReferencingModels) :
    (s.merge primary merged).table m = s.table m := by
  obtain ⟨hne, hm⟩ := not_or.mp fun h => hm (List.mem_cons.mpr h)
  rw [Db.merge, Db.table_modify_of_ne hne, table_moveRows _ (by decide), if_neg hm]

theorem find?_merge_customer (id : Id) :
    (s.merge primary merged).find? .customer id =
      if id = merged then (s.find? .customer id).map (Customer.mergeInto primary)
      else s.find? .customer id := by
  have hcustomers : (s.moveRows customerReferencingModels primary merged).table .customer =
      s.table .customer := by
    rw [table_moveRows _ (by decide)]
    exact if_neg (by decide)
  have hfind : (s.moveRows customerReferencingModels primary merged).find? .customer id =
      s.find? .customer id := congrArg (OrderedMap.get? · id) hcustomers
  rw [Db.merge, Db.find?_modify, hfind]

/-- A customer belongs to no customer. -/
theorem ownerOf_modify_customer (s : Db) (customerId : Id) (f : Customer → Customer) (m : Model)
    (id : Id) : (s.modify .customer customerId f).ownerOf m id = s.ownerOf m id := by
  by_cases hm : m = .customer
  · subst hm
    have hnone : ∀ u : Db, u.ownerOf .customer id = none := by
      intro u
      unfold Db.ownerOf
      cases u.find? .customer id <;> rfl
    rw [hnone, hnone]
  · unfold Db.ownerOf
    rw [Db.find?_modify_of_ne hm]

theorem ownerOf_merge (m : Model) (id : Id) :
    (s.merge primary merged).ownerOf m id =
      if m ∈ customerReferencingModels ∧ s.ownerOf m id = some merged then some primary
      else s.ownerOf m id := by
  rw [← ownerOf_moveRows (by decide)]
  exact ownerOf_modify_customer ..

/-- Nothing happens to the other tables. -/
theorem agree_merge {watched : List Model}
    (h : ∀ m ∈ watched, m ∉ Model.customer :: customerReferencingModels) (primary merged : Id) :
    s.Agree watched (s.merge primary merged) := fun m hm => table_merge_of_not_mem (h m hm)

end Run

/-! ## What a rollback does -/

/-- The rows of a list go back to the customer they were taken from. -/
def Db.giveBack (s : Db) (mergedCustomerId : Id) (reassignedRecords : List (Model × Id)) : Db :=
  reassignedRecords.foldl (fun s record =>
    s.modify record.1 record.2 (setCustomerId record.1 mergedCustomerId)) s

/-- The customer is not merged any more. -/
def Customer.restore (c : Customer) : Customer :=
  { c with mergeStatus := .active, mergedIntoCustomerId := none }

/-- The database after a rollback. -/
def Db.rollback (s : Db) (mergedCustomerId : Id) (reassignedRecords : List (Model × Id)) : Db :=
  (s.giveBack mergedCustomerId reassignedRecords).modify .customer mergedCustomerId Customer.restore

section Rollback

variable {s t : Db}

theorem ownerOf_giveBack (s : Db) (mergedCustomerId : Id) (records : List (Model × Id)) (m : Model)
    (id : Id) :
    (s.giveBack mergedCustomerId records).ownerOf m id =
      if (m, id) ∈ records then (s.ownerOf m id).map fun _ => mergedCustomerId
      else s.ownerOf m id := by
  have hone : ∀ (s : Db) (m' : Model) (id' : Id),
      (s.modify m' id' (setCustomerId m' mergedCustomerId)).ownerOf m id =
        if (m, id) = (m', id') then (s.ownerOf m id).map fun _ => mergedCustomerId
        else s.ownerOf m id := by
    intro s m' id'
    unfold Db.ownerOf
    by_cases hm : m = m'
    · subst hm
      rw [Db.find?_modify]
      by_cases hid : id = id'
      · rw [if_pos hid, if_pos (by rw [hid]), Option.bind_map]
        cases s.find? m id with
        | none => rfl
        | some row => exact customerIdOf_setCustomerId m mergedCustomerId row
      · rw [if_neg hid, if_neg fun h => hid (Prod.mk.inj h).2]
    · rw [Db.find?_modify_of_ne hm, if_neg fun h => hm (Prod.mk.inj h).1]
  induction records generalizing s with
  | nil => exact (if_neg List.not_mem_nil).symm
  | cons record records ih =>
    show ((s.modify record.1 record.2 _).giveBack mergedCustomerId records).ownerOf m id = _
    rw [ih, hone]
    by_cases hhead : (m, id) = record
    · subst hhead
      rw [if_pos rfl, if_pos (List.mem_cons_self ..), Option.map_map]
      split <;> rfl
    · rw [if_neg hhead]
      simp only [List.mem_cons, hhead, false_or]

theorem ownerOf_rollback (s : Db) (mergedCustomerId : Id) (records : List (Model × Id)) (m : Model)
    (id : Id) :
    (s.rollback mergedCustomerId records).ownerOf m id =
      if (m, id) ∈ records then (s.ownerOf m id).map fun _ => mergedCustomerId
      else s.ownerOf m id := by
  rw [← ownerOf_giveBack]
  exact ownerOf_modify_customer ..

/-- The tables whose rows belong to no customer. -/
theorem table_giveBack {m : Model} (hm : ∀ id (row : Row m), setCustomerId m id row = row) (s : Db)
    (mergedCustomerId : Id) (records : List (Model × Id)) :
    (s.giveBack mergedCustomerId records).table m = s.table m := by
  induction records generalizing s with
  | nil => rfl
  | cons record records ih =>
    obtain ⟨m', id'⟩ := record
    show ((s.modify m' id' _).giveBack mergedCustomerId records).table m = _
    rw [ih]
    by_cases hmodel : m = m'
    · subst hmodel
      have hid : setCustomerId m mergedCustomerId = id := funext (hm mergedCustomerId)
      rw [hid, Db.table_modify_self, OrderedMap.modify_id]
    · rw [Db.table_modify_of_ne hmodel]

theorem run_giveBack_eq_ok {mergedCustomerId : Id} {records : List (Model × Id)} {u : Unit}
    (h : (Proc.forEach records fun record => do
      let _ ← update record.1 record.2 (setCustomerId record.1 mergedCustomerId)).run s =
        (.ok u, t)) :
    t = s.giveBack mergedCustomerId records := by
  induction records generalizing s with
  | nil => exact (Prod.mk.inj h).2.symm
  | cons record records ih =>
    rw [Proc.forEach_cons, Proc.bind_assoc] at h
    obtain ⟨row, -, hrest⟩ := run_updateAs_bind_eq_ok h
    exact ih hrest

theorem run_rollbackInTx_eq_ok {auth : Auth} {now : DateTime} {recordId : Id} {reason : String}
    {mergedCustomerId : Id} {records : List (Model × Id)} {u : Unit}
    (h : (rollbackInTx auth now recordId reason mergedCustomerId records).run s = (.ok u, t)) :
    t = (s.rollback mergedCustomerId records).modify .customerMergeRecord recordId fun r =>
      { r with status := .rolledBack, rolledBackById := some auth.userId,
               rolledBackAt := some now, rollbackReason := some reason } := by
  obtain ⟨_, s₁, hback, h⟩ := Proc.run_bind_eq_ok h
  obtain ⟨_, s₂, hrows, hback⟩ := Proc.run_bind_eq_ok hback
  rw [run_giveBack_eq_ok hrows] at hback
  rw [run_update_end_eq_ok hback] at h
  exact run_update_end_eq_ok h

/-- A rollback fails and leaves the database as it is, or is one of an approved merge, and gives
the rows of its list back. -/
theorem ends_rollbackMerge {auth : Auth} {now : DateTime} {recordId : Id} {reason : Option String}
    {Q : Except Failure Unit → Db → Prop} (herr : ∀ e, Q (.error e) s)
    (hok : ∀ text record records, (reason.filter fun text => text ≠ "") = some text →
      s.find? .customerMergeRecord recordId = some record →
      record.institutionId = auth.institutionId → record.status = .approved →
      record.reassignedRecords = some records →
      Q (.ok ()) (((s.rollback record.mergedCustomerId records).modify .customerMergeRecord recordId
        fun r => { r with status := .rolledBack, rolledBackById := some auth.userId,
                          rolledBackAt := some now, rollbackReason := some text }).insert .auditLog
          { institutionId := auth.institutionId, userId := some auth.userId,
            action := "customer_merge.rolled_back", resource := "customer_merge_record",
            resourceId := some recordId })) :
    (rollbackMerge auth now recordId reason).Ends Q s := by
  apply Proc.Ends.orFail
  · intro text htext
    apply ends_query
    apply Proc.Ends.orFail
    · intro record hrecord
      obtain ⟨hfound, happroved⟩ := Option.filter_eq_some_iff.mp hrecord
      simp only [Bool.and_eq_true, decide_eq_true_eq] at happroved
      apply Proc.Ends.orFail
      · intro records hrecords
        apply Proc.Ends.outcome_transaction
        · intro _ t hrun
          rw [run_rollbackInTx_eq_ok hrun]
          exact hok text record records htext hfound happroved.1 happroved.2 hrecords
        · exact fun _ => herr _
      · exact fun _ => herr _
    · exact fun _ => herr _
  · exact fun _ => herr _

end Rollback

/-! ## Decisions -/

/-- The merge that a statement executes. -/
def Access.merge? (lab : Access) (s : Db) : Option CustomerMergeRecord :=
  (lab.resolves.filter fun x =>
    x.approved && decide (x.request.type = .customerMerge) &&
      (s.find? .approvalRequest x.requestId).any fun r => r.status = .pending).bind fun x =>
    s.find? .customerMergeRecord x.request.targetId

theorem merge?_of_resolves {lab : Access} (h : lab.resolves = none) (s : Db) :
    lab.merge? s = none := by
  unfold Access.merge?
  rw [h]
  rfl

/-- Tables that no decision writes but one about a merge. -/
theorem run_inTx_merge {call : ResolveCall} {existing : ApprovalRequest} {s t : Db} {u : Unit}
    {watched : List Model} (hwatched : ∀ m ∈ watched, m ∈ customerReferencingModels)
    (hwrites : ∀ type, type ≠ .customerMerge → ∀ m ∈ approvalWrites type, m ∉ watched)
    (hrun : (call.inTx existing).run s = (.ok u, t)) :
    s.Agree watched t ∨
      ∃ r ∈ ({ resolves := some ⟨call.requestId, existing, call.decision = .approve, call.now⟩ } :
          Access).merge? s,
        (s.merge r.primaryCustomerId r.mergedCustomerId).Agree watched t := by
  obtain ⟨row, v, hrow, hpending, heffect, ht⟩ := ResolveCall.run_inTx_effect hrun
  have hne : ∀ {m : Model}, m ∉ customerReferencingModels → m ∉ watched := fun hm hmem =>
    hm (hwatched _ hmem)
  have hclaim : s.Agree watched (s.modify .approvalRequest call.requestId call.resolve) :=
    .modify (m := .approvalRequest) (hne (by decide)) s _ _
  have hlog : v.Agree watched t := by
    rw [ht]
    exact .insert (m := .auditLog) (hne (by decide)) v _
  by_cases htype : existing.type = .customerMerge
  · unfold ResolveCall.effect at heffect
    cases hdecision : call.decision with
    | reject =>
      left
      simp only [hdecision, applyRejection, htype] at heffect
      rw [run_update_end_eq_ok heffect] at hlog
      have hrecord := Db.Agree.modify (m := .customerMergeRecord) (hne (by decide))
        (s.modify .approvalRequest call.requestId call.resolve) existing.targetId
        (fun r => { r with status := CustomerMergeRecordStatus.rejected })
      exact (hclaim.trans hrecord).trans hlog
    | approve =>
      right
      simp only [hdecision, applyApproval, htype] at heffect
      obtain ⟨r, hr, -, hv⟩ := run_mergeCustomers_eq_ok heffect
      rw [Db.find?_modify_of_ne (by decide)] at hr
      refine ⟨r, ?_, ?_⟩
      · show (Option.filter _ (some _)).bind _ = some r
        rw [Option.filter_some, if_pos]
        · exact hr
        · rw [hrow, htype]
          simp [hpending]
      · intro m hm
        have hmerged : m ∈ customerReferencingModels := hwatched m hm
        have hv' : v.table m = ((s.modify .approvalRequest call.requestId call.resolve).merge
            r.primaryCustomerId r.mergedCustomerId).table m := by
          rw [hv, Db.table_modify_of_ne]
          rintro rfl
          exact absurd hmerged (by decide)
        rw [hlog m hm, hv', table_merge_of_mem hmerged, table_merge_of_mem hmerged, hclaim m hm]
  · left
    have hquiet := (call.quiet_effect (hwrites existing.type htype)).run
      (s.modify .approvalRequest call.requestId call.resolve)
    rw [heffect] at hquiet
    exact (hclaim.trans hquiet).trans hlog

end NexusEfos
