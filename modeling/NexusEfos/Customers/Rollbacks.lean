/-
Merges of customers that are rolled back.

A merge lists the rows that it moves, and a rollback gives the rows of its list to the merged
customer, whoever has them by then.  The lists of two merges share a row when the second merges the
primary customer of the first, and then the row ends where the last of the two rollbacks puts it.
-/
import NexusEfos.Customers.Consolidation

namespace NexusEfos

open Proc

/-! ## Where the rows were -/

/-- One if the customer is the owner. -/
def owns (owner customerId : Id) : ℤ := if owner = customerId then 1 else 0

theorem owns_injective {a b : Id} (h : ∀ c, owns a c = owns b c) : a = b := by
  have hone := h b
  unfold owns at hone
  by_contra hne
  rw [if_neg hne, if_pos rfl] at hone
  omega

/-- The merge has been approved, and has moved the row. -/
def CustomerMergeRecord.Lists (r : CustomerMergeRecord) (row : Model × Id) : Prop :=
  r.status = .approved ∧ ∃ records ∈ r.reassignedRecords, row ∈ records

instance (r : CustomerMergeRecord) (row : Model × Id) : Decidable (r.Lists row) :=
  inferInstanceAs (Decidable (_ ∧ ∃ records ∈ r.reassignedRecords, _))

/-- What a merge has done to a row: the primary customer has got it, and the merged one has lost
it. -/
def CustomerMergeRecord.shift (row : Model × Id) (customerId : Id) (r : CustomerMergeRecord) : ℤ :=
  if r.Lists row then owns r.primaryCustomerId customerId - owns r.mergedCustomerId customerId else 0

/-- What all of them have done to it. -/
def Db.shifts (s : Db) (row : Model × Id) (customerId : Id) : ℤ :=
  (s.table .customerMergeRecord).total fun _ r => r.shift row customerId

section Shifts

variable {s : Db} {r : CustomerMergeRecord} {row : Model × Id} {customerId : Id}

theorem shift_of_not_approved (h : r.status ≠ .approved) : r.shift row customerId = 0 :=
  if_neg fun hlists => h hlists.1

theorem shifts_modify {recordId : Id} (hr : s.find? .customerMergeRecord recordId = some r)
    (f : CustomerMergeRecord → CustomerMergeRecord) :
    (s.modify .customerMergeRecord recordId f).shifts row customerId =
      s.shifts row customerId + ((f r).shift row customerId - r.shift row customerId) := by
  unfold Db.shifts
  rw [Db.table_modify_self]
  exact OrderedMap.total_modify_of_some hr _ _

theorem shifts_insert (r : CustomerMergeRecord) :
    (s.insert .customerMergeRecord r).shifts row customerId =
      s.shifts row customerId + r.shift row customerId := by
  unfold Db.shifts
  rw [Db.table_insert_self]
  exact OrderedMap.total_create _ _ _

theorem shifts_congr {t : Db} (h : t.table .customerMergeRecord = s.table .customerMergeRecord) :
    t.shifts row customerId = s.shifts row customerId := by
  unfold Db.shifts
  rw [h]

end Shifts

/-! ## The invariant -/

/-- The rows that the approved merges list are there, and a customer who has been merged has been
merged by one of them. -/
structure Db.Tracked (s : Db) : Prop where
  listed : ∀ recordId r row, s.find? .customerMergeRecord recordId = some r → r.Lists row →
    row.1 ∈ customerReferencingModels ∧ (s.ownerOf row.1 row.2).isSome = true
  merged : ∀ id c, s.find? .customer id = some c →
    (c.mergeStatus = .active ∧ c.mergedIntoCustomerId = none) ∨
      ∃ recordId r, s.find? .customerMergeRecord recordId = some r ∧ r.status = .approved ∧
        r.mergedCustomerId = id

/-- The request is to merge two customers, and pending. -/
def ApprovalRequest.AwaitsMerge (r : ApprovalRequest) : Prop :=
  r.type = .customerMerge ∧ r.status = .pending

/-- The pending requests are about different merges, which are pending too. -/
structure Db.MergesPending (s : Db) : Prop where
  target : ∀ requestId r, s.find? .approvalRequest requestId = some r → r.AwaitsMerge →
    ∃ record, s.find? .customerMergeRecord r.targetId = some record ∧
      record.status = .pendingApproval
  distinct : ∀ requestId requestId' r r', s.find? .approvalRequest requestId = some r →
    s.find? .approvalRequest requestId' = some r' → r.AwaitsMerge → r'.AwaitsMerge →
    r.targetId = r'.targetId → requestId = requestId'

/-- What a call does to the rows: one that was there before is where the merges that are approved
by now have put it. -/
structure Db.CarriesHome (s t : Db) : Prop where
  kept : ∀ m ∈ customerReferencingModels, ∀ id a, s.ownerOf m id = some a →
    ∃ b, t.ownerOf m id = some b ∧
      ∀ c, owns b c - t.shifts (m, id) c = owns a c - s.shifts (m, id) c
  fresh : ∀ m id, s.ownerOf m id = none → ∀ c, t.shifts (m, id) c = 0

section Steps

variable {s t : Db}

theorem Db.Tracked.shifts_eq_zero (hs : s.Tracked) {m : Model} {id : Id}
    (h : s.ownerOf m id = none) (c : Id) : s.shifts (m, id) c = 0 := by
  apply OrderedMap.total_eq_zero
  intro recordId r hr
  have hfound : s.find? .customerMergeRecord recordId = some r := OrderedMap.get?_eq_some.mpr hr
  apply if_neg
  intro hlists
  have hthere := (hs.listed recordId r (m, id) hfound hlists).2
  rw [h] at hthere
  exact absurd hthere (by decide)

/-- Nothing is moved, and no merge is decided. -/
theorem Db.CarriesHome.of_same (hs : s.Tracked)
    (howner : ∀ m ∈ customerReferencingModels, ∀ id a, s.ownerOf m id = some a →
      t.ownerOf m id = some a)
    (hshifts : ∀ row c, t.shifts row c = s.shifts row c) : s.CarriesHome t where
  kept := fun m hm id a ha => ⟨a, howner m hm id a ha, fun c => by rw [hshifts]⟩
  fresh := fun m id h c => by rw [hshifts, hs.shifts_eq_zero h]

theorem Db.CarriesHome.congr {s' t' : Db} (h : s.CarriesHome t)
    (hs : s'.Agree (.customerMergeRecord :: mergeModels) s)
    (ht : t.Agree (.customerMergeRecord :: mergeModels) t') : s'.CarriesHome t' := by
  have hrows : ∀ {u v : Db}, u.Agree (.customerMergeRecord :: mergeModels) v → ∀ m id,
      v.ownerOf m id = u.ownerOf m id := fun hagree m id =>
    ownerOf_of_agree (hagree.mono fun m hm => List.mem_cons_of_mem _ hm) m id
  have hshifts : ∀ {u v : Db}, u.Agree (.customerMergeRecord :: mergeModels) v → ∀ row c,
      v.shifts row c = u.shifts row c := fun hagree row c =>
    shifts_congr (hagree _ (List.mem_cons_self ..))
  constructor
  · intro m hm id a ha
    rw [← hrows hs] at ha
    obtain ⟨b, hb, hsame⟩ := h.kept m hm id a ha
    refine ⟨b, (hrows ht m id).trans hb, ?_⟩
    intro c
    rw [hshifts ht, hsame, hshifts hs]
  · intro m id ha c
    rw [← hrows hs] at ha
    rw [hshifts ht, h.fresh m id ha]

theorem Db.Tracked.of_agree (hs : s.Tracked) (h : s.Agree (.customerMergeRecord :: mergeModels) t) :
    t.Tracked := by
  have hrecords : ∀ id, t.find? .customerMergeRecord id = s.find? .customerMergeRecord id :=
    fun id => h.find? (by decide) id
  have hcustomers : ∀ id, t.find? .customer id = s.find? .customer id :=
    fun id => h.find? (by decide) id
  constructor
  · intro recordId r row hr hlists
    rw [hrecords] at hr
    rw [ownerOf_of_agree (h.mono fun m hm => List.mem_cons_of_mem _ hm)]
    exact hs.listed recordId r row hr hlists
  · intro id c hc
    rw [hcustomers] at hc
    simp only [hrecords]
    exact hs.merged id c hc

/-! ## The decisions -/

variable {recordId : Id} {r : CustomerMergeRecord} {f : CustomerMergeRecord → CustomerMergeRecord}

/-- A merge that is asked for. -/
theorem Db.Tracked.propose (hs : s.Tracked) (hr : r.status ≠ .approved) :
    (s.insert .customerMergeRecord r).Tracked ∧
      s.CarriesHome (s.insert .customerMergeRecord r) := by
  have howner : ∀ m id, (s.insert .customerMergeRecord r).ownerOf m id = s.ownerOf m id :=
    ownerOf_of_agree (.insert (m := .customerMergeRecord) (by decide) s r)
  have hold : ∀ id r', s.find? .customerMergeRecord id = some r' →
      (s.insert .customerMergeRecord r).find? .customerMergeRecord id = some r' := fun id r' hr' =>
    OrderedMap.get?_create_of_some hr' r
  constructor
  · constructor
    · intro id r' row hr' hlists
      rw [howner]
      rw [Db.find?_insert] at hr'
      split at hr'
      · rw [← Option.some.inj hr'] at hlists
        exact absurd hlists.1 hr
      · exact hs.listed id r' row hr' hlists
    · intro id c hc
      rw [Db.find?_insert_of_ne (by decide)] at hc
      rcases hs.merged id c hc with hactive | ⟨recordId', r', hr', happroved, hcustomer⟩
      · exact .inl hactive
      · exact .inr ⟨recordId', r', hold recordId' r' hr', happroved, hcustomer⟩
  · apply Db.CarriesHome.of_same hs
    · intro m _ id a ha
      rw [howner, ha]
    · intro row c
      rw [shifts_insert, shift_of_not_approved hr, add_zero]

/-- A merge that was not approved, and is not. -/
theorem Db.Tracked.reject (hs : s.Tracked) (hr : s.find? .customerMergeRecord recordId = some r)
    (hbefore : r.status ≠ .approved) (hafter : (f r).status ≠ .approved) :
    (s.modify .customerMergeRecord recordId f).Tracked ∧
      s.CarriesHome (s.modify .customerMergeRecord recordId f) := by
  have howner : ∀ m id, (s.modify .customerMergeRecord recordId f).ownerOf m id = s.ownerOf m id :=
    ownerOf_of_agree (.modify (m := .customerMergeRecord) (by decide) s recordId f)
  have hother : ∀ id r', s.find? .customerMergeRecord id = some r' → r'.status = .approved →
      (s.modify .customerMergeRecord recordId f).find? .customerMergeRecord id = some r' := by
    intro id r' hr' happroved
    rw [Db.find?_modify]
    split
    · next heq =>
      subst heq
      rw [Option.some.inj (hr.symm.trans hr')] at hbefore
      exact absurd happroved hbefore
    · exact hr'
  constructor
  · constructor
    · intro id r' row hr' hlists
      rw [howner]
      rw [Db.find?_modify] at hr'
      split at hr'
      · next heq =>
        subst heq
        rw [hr] at hr'
        rw [← Option.some.inj hr'] at hlists
        exact absurd hlists.1 hafter
      · exact hs.listed id r' row hr' hlists
    · intro id c hc
      rw [Db.find?_modify_of_ne (by decide)] at hc
      rcases hs.merged id c hc with hactive | ⟨recordId', r', hr', happroved, hcustomer⟩
      · exact .inl hactive
      · exact .inr ⟨recordId', r', hother recordId' r' hr' happroved, happroved, hcustomer⟩
  · apply Db.CarriesHome.of_same hs
    · intro m _ id a ha
      rw [howner, ha]
    · intro row c
      rw [shifts_modify hr, shift_of_not_approved hafter, shift_of_not_approved hbefore]
      simp

/-- A merge that is approved lists the rows that it moves. -/
theorem Db.Tracked.merge (hs : s.Tracked) (hr : s.find? .customerMergeRecord recordId = some r)
    (hbefore : r.status ≠ .approved) (hafter : (f r).status = .approved)
    (hprimary : (f r).primaryCustomerId = r.primaryCustomerId)
    (hmerged : (f r).mergedCustomerId = r.mergedCustomerId)
    (hrecords : (f r).reassignedRecords = some (s.mergedRows r.mergedCustomerId)) :
    ((s.merge r.primaryCustomerId r.mergedCustomerId).modify .customerMergeRecord recordId f).Tracked ∧
      s.CarriesHome ((s.merge r.primaryCustomerId r.mergedCustomerId).modify .customerMergeRecord
        recordId f) := by
  have htable : (s.merge r.primaryCustomerId r.mergedCustomerId).table .customerMergeRecord =
      s.table .customerMergeRecord := table_merge_of_not_mem (by decide)
  have hfind : ∀ id, ((s.merge r.primaryCustomerId r.mergedCustomerId).modify .customerMergeRecord
      recordId f).find? .customerMergeRecord id =
        if id = recordId then some (f r) else s.find? .customerMergeRecord id := by
    intro id
    rw [Db.find?_modify, Db.find?, htable, ← Db.find?]
    split
    · next heq => rw [heq, hr, Option.map_some]
    · rfl
  have howner : ∀ m id, ((s.merge r.primaryCustomerId r.mergedCustomerId).modify
      .customerMergeRecord recordId f).ownerOf m id =
        if m ∈ customerReferencingModels ∧ s.ownerOf m id = some r.mergedCustomerId then
          some r.primaryCustomerId else s.ownerOf m id := by
    intro m id
    rw [← ownerOf_merge]
    exact ownerOf_of_agree (.modify (m := .customerMergeRecord) (by decide) _ recordId f) m id
  have hlists : ∀ m id, (f r).Lists (m, id) ↔
      m ∈ customerReferencingModels ∧ s.ownerOf m id = some r.mergedCustomerId := by
    intro m id
    unfold CustomerMergeRecord.Lists
    rw [hafter, hrecords]
    constructor
    · rintro ⟨-, records, hmem, hrow⟩
      obtain rfl := Option.some.inj hmem
      obtain ⟨m', hm', hrow⟩ := List.mem_flatMap.mp hrow
      obtain ⟨rfl, howned⟩ := mem_rowsOfCustomer.mp hrow
      exact ⟨hm', howned⟩
    · rintro ⟨hm, howned⟩
      exact ⟨rfl, _, rfl, List.mem_flatMap.mpr ⟨m, hm, mem_rowsOfCustomer.mpr ⟨rfl, howned⟩⟩⟩
  have hshifts : ∀ row c, ((s.merge r.primaryCustomerId r.mergedCustomerId).modify
      .customerMergeRecord recordId f).shifts row c = s.shifts row c + (f r).shift row c := by
    intro row c
    have hrow : (s.merge r.primaryCustomerId r.mergedCustomerId).find? .customerMergeRecord
        recordId = some r := by
      rw [Db.find?, htable]
      exact hr
    rw [shifts_modify hrow, shifts_congr htable, shift_of_not_approved hbefore, sub_zero]
  constructor
  · constructor
    · intro id r' row hr' hlisted
      rw [hfind] at hr'
      have hbefore : row.1 ∈ customerReferencingModels ∧
          (s.ownerOf row.1 row.2).isSome = true := by
        split at hr'
        · rw [← Option.some.inj hr'] at hlisted
          obtain ⟨hm, howned⟩ := (hlists row.1 row.2).mp hlisted
          exact ⟨hm, by rw [howned]; rfl⟩
        · exact hs.listed id r' row hr' hlisted
      refine ⟨hbefore.1, ?_⟩
      rw [howner]
      split
      · rfl
      · exact hbefore.2
    · intro id c hc
      rw [Db.find?_modify_of_ne (by decide), find?_merge_customer] at hc
      by_cases hid : id = r.mergedCustomerId
      · refine .inr ⟨recordId, f r, ?_, hafter, ?_⟩
        · rw [hfind, if_pos rfl]
        · rw [hmerged, hid]
      · rw [if_neg hid] at hc
        rcases hs.merged id c hc with hactive | ⟨recordId', r', hr', happroved, hcustomer⟩
        · exact .inl hactive
        · refine .inr ⟨recordId', r', ?_, happroved, hcustomer⟩
          rw [hfind, if_neg]
          · exact hr'
          · rintro rfl
            rw [Option.some.inj (hr.symm.trans hr')] at hbefore
            exact hbefore happroved
  · constructor
    · intro m hm id a ha
      rw [howner]
      by_cases howned : s.ownerOf m id = some r.mergedCustomerId
      · rw [if_pos ⟨hm, howned⟩]
        refine ⟨_, rfl, ?_⟩
        intro c
        have hold : a = r.mergedCustomerId := Option.some.inj (ha.symm.trans howned)
        rw [hshifts, CustomerMergeRecord.shift, if_pos ((hlists m id).mpr ⟨hm, howned⟩), hprimary,
          hmerged, hold]
        ring
      · rw [if_neg fun h => howned h.2]
        refine ⟨a, ha, ?_⟩
        intro c
        rw [hshifts, CustomerMergeRecord.shift, if_neg fun h => howned ((hlists m id).mp h).2,
          add_zero]
    · intro m id ha c
      rw [hshifts, hs.shifts_eq_zero ha, CustomerMergeRecord.shift, if_neg, add_zero]
      intro h
      rw [((hlists m id).mp h).2] at ha
      exact absurd ha (by simp)

/-- A rollback that finds the rows of its list where the merge has put them. -/
theorem Db.Tracked.rollback (hs : s.Tracked) (hr : s.find? .customerMergeRecord recordId = some r)
    {records : List (Model × Id)} (hbefore : r.status = .approved)
    (hrecords : r.reassignedRecords = some records) (hafter : (f r).status ≠ .approved)
    (hplace : ∀ row ∈ records, s.ownerOf row.1 row.2 = some r.primaryCustomerId) :
    ((s.rollback r.mergedCustomerId records).modify .customerMergeRecord recordId f).Tracked ∧
      s.CarriesHome ((s.rollback r.mergedCustomerId records).modify .customerMergeRecord
        recordId f) := by
  have htable : (s.rollback r.mergedCustomerId records).table .customerMergeRecord =
      s.table .customerMergeRecord := by
    rw [Db.rollback, Db.table_modify_of_ne (by decide), table_giveBack fun _ _ => rfl]
  have hfind : ∀ id, ((s.rollback r.mergedCustomerId records).modify .customerMergeRecord
      recordId f).find? .customerMergeRecord id =
        if id = recordId then some (f r) else s.find? .customerMergeRecord id := by
    intro id
    rw [Db.find?_modify, Db.find?, htable, ← Db.find?]
    split
    · next heq => rw [heq, hr, Option.map_some]
    · rfl
  have howner : ∀ m id, ((s.rollback r.mergedCustomerId records).modify .customerMergeRecord
      recordId f).ownerOf m id =
        if (m, id) ∈ records then some r.mergedCustomerId else s.ownerOf m id := by
    intro m id
    have hsame : ((s.rollback r.mergedCustomerId records).modify .customerMergeRecord recordId
        f).ownerOf m id = (s.rollback r.mergedCustomerId records).ownerOf m id :=
      ownerOf_of_agree (.modify (m := .customerMergeRecord) (by decide) _ recordId f) m id
    rw [hsame, ownerOf_rollback]
    split
    · next hmem => rw [hplace (m, id) hmem, Option.map_some]
    · rfl
  have hlists : ∀ row, r.Lists row ↔ row ∈ records := by
    intro row
    unfold CustomerMergeRecord.Lists
    rw [hbefore, hrecords]
    simp
  have hshifts : ∀ row c, ((s.rollback r.mergedCustomerId records).modify .customerMergeRecord
      recordId f).shifts row c = s.shifts row c - r.shift row c := by
    intro row c
    have hrow : (s.rollback r.mergedCustomerId records).find? .customerMergeRecord recordId =
        some r := by
      rw [Db.find?, htable]
      exact hr
    rw [shifts_modify hrow, shifts_congr htable, shift_of_not_approved hafter, zero_sub,
      sub_eq_add_neg]
  constructor
  · constructor
    · intro id r' row hr' hlisted
      rw [hfind] at hr'
      split at hr'
      · rw [← Option.some.inj hr'] at hlisted
        exact absurd hlisted.1 hafter
      · obtain ⟨hm, hthere⟩ := hs.listed id r' row hr' hlisted
        refine ⟨hm, ?_⟩
        rw [howner]
        split
        · rfl
        · exact hthere
    · intro id c hc
      rw [Db.find?_modify_of_ne (by decide), Db.rollback, Db.find?_modify, Db.find?,
        table_giveBack fun _ _ => rfl, ← Db.find?] at hc
      split at hc
      · obtain ⟨c₀, -, rfl⟩ := Option.map_eq_some_iff.mp hc
        exact .inl ⟨rfl, rfl⟩
      · next hid =>
        rcases hs.merged id c hc with hactive | ⟨recordId', r', hr', happroved, hcustomer⟩
        · exact .inl hactive
        · refine .inr ⟨recordId', r', ?_, happroved, hcustomer⟩
          rw [hfind, if_neg]
          · exact hr'
          · rintro rfl
            rw [Option.some.inj (hr.symm.trans hr')] at hid
            exact hid hcustomer.symm
  · constructor
    · intro m hm id a ha
      rw [howner]
      by_cases hmem : (m, id) ∈ records
      · rw [if_pos hmem]
        refine ⟨_, rfl, ?_⟩
        intro c
        have hold : a = r.primaryCustomerId := Option.some.inj (ha.symm.trans (hplace (m, id) hmem))
        rw [hshifts, CustomerMergeRecord.shift, if_pos ((hlists _).mpr hmem), hold]
        ring
      · rw [if_neg hmem]
        refine ⟨a, ha, ?_⟩
        intro c
        rw [hshifts, CustomerMergeRecord.shift, if_neg fun h => hmem ((hlists _).mp h), sub_zero]
    · intro m id ha c
      rw [hshifts, hs.shifts_eq_zero ha, CustomerMergeRecord.shift, if_neg, sub_zero]
      intro h
      rw [hplace (m, id) ((hlists _).mp h)] at ha
      exact absurd ha (by simp)

/-! ## The pending requests -/

theorem Db.MergesPending.of_agree (hs : s.MergesPending)
    (h : s.Agree [.approvalRequest, .customerMergeRecord] t) : t.MergesPending := by
  have hrequests : ∀ id, t.find? .approvalRequest id = s.find? .approvalRequest id :=
    fun id => h.find? (by decide) id
  have hrecords : ∀ id, t.find? .customerMergeRecord id = s.find? .customerMergeRecord id :=
    fun id => h.find? (by decide) id
  constructor
  · intro requestId r hr
    rw [hrecords]
    rw [hrequests] at hr
    exact hs.target requestId r hr
  · intro requestId requestId' r r' hr hr'
    rw [hrequests] at hr hr'
    exact hs.distinct requestId requestId' r r' hr hr'

/-- A merge that no pending request is about. -/
theorem Db.MergesPending.modify_record (hs : s.MergesPending)
    (hfree : ∀ requestId r, s.find? .approvalRequest requestId = some r → r.AwaitsMerge →
      r.targetId ≠ recordId) (f : CustomerMergeRecord → CustomerMergeRecord) :
    (s.modify .customerMergeRecord recordId f).MergesPending := by
  constructor
  · intro requestId r hr hawaits
    rw [Db.find?_modify_of_ne (by decide)] at hr
    rw [Db.find?_modify, if_neg (hfree requestId r hr hawaits)]
    exact hs.target requestId r hr hawaits
  · intro requestId requestId' r r' hr hr'
    rw [Db.find?_modify_of_ne (by decide)] at hr hr'
    exact hs.distinct requestId requestId' r r' hr hr'

/-- A request that is resolved, and no pending one is about its merge any more. -/
theorem Db.MergesPending.claim (hs : s.MergesPending) {requestId : Id} {existing : ApprovalRequest}
    (hfound : s.find? .approvalRequest requestId = some existing) (hawaits : existing.AwaitsMerge)
    {g : ApprovalRequest → ApprovalRequest} (hg : ∀ r, (g r).status ≠ .pending) :
    (s.modify .approvalRequest requestId g).MergesPending ∧
      ∀ requestId' r, (s.modify .approvalRequest requestId g).find? .approvalRequest requestId' =
        some r → r.AwaitsMerge → r.targetId ≠ existing.targetId := by
  have hbefore : ∀ id r, (s.modify .approvalRequest requestId g).find? .approvalRequest id =
      some r → r.AwaitsMerge → id ≠ requestId ∧ s.find? .approvalRequest id = some r := by
    intro id r hr hr'
    rw [Db.find?_modify] at hr
    split at hr
    · obtain ⟨r₀, -, rfl⟩ := Option.map_eq_some_iff.mp hr
      exact absurd hr'.2 (hg r₀)
    · next hne => exact ⟨hne, hr⟩
  constructor
  · constructor
    · intro id r hr hr'
      rw [Db.find?_modify_of_ne (by decide)]
      exact hs.target id r (hbefore id r hr hr').2 hr'
    · intro id id' r r' hr hr' ha ha'
      exact hs.distinct id id' r r' (hbefore id r hr ha).2 (hbefore id' r' hr' ha').2 ha ha'
  · intro id r hr ha heq
    obtain ⟨hne, hold⟩ := hbefore id r hr ha
    exact hne (hs.distinct id requestId r existing hold hfound ha hawaits heq)

/-- A new request about a new merge. -/
theorem Db.MergesPending.request (hs : s.MergesPending) {record : CustomerMergeRecord}
    (hrecord : record.status = .pendingApproval) {request : ApprovalRequest}
    (htarget : request.targetId = s.nextId .customerMergeRecord) :
    ((s.insert .customerMergeRecord record).insert .approvalRequest request).MergesPending := by
  have hrequests : ∀ id, ((s.insert .customerMergeRecord record).insert .approvalRequest
      request).find? .approvalRequest id = if id = s.nextId .approvalRequest then some request
        else s.find? .approvalRequest id := by
    intro id
    rw [Db.find?_insert, Db.find?_insert_of_ne (by decide)]
    rfl
  have hrecords : ∀ id, ((s.insert .customerMergeRecord record).insert .approvalRequest
      request).find? .customerMergeRecord id = if id = s.nextId .customerMergeRecord then some record
        else s.find? .customerMergeRecord id := by
    intro id
    rw [Db.find?_insert_of_ne (by decide), Db.find?_insert]
  have hold : ∀ id r, s.find? .approvalRequest id = some r → r.AwaitsMerge →
      r.targetId ≠ s.nextId .customerMergeRecord := by
    intro id r hr ha heq
    obtain ⟨record', hrecord', -⟩ := hs.target id r hr ha
    have hnone : s.find? .customerMergeRecord (s.nextId .customerMergeRecord) = none :=
      OrderedMap.get?_nextKey _
    rw [heq, hnone] at hrecord'
    exact absurd hrecord' nofun
  constructor
  · intro id r hr ha
    rw [hrequests] at hr
    rw [hrecords]
    split at hr
    · rw [← Option.some.inj hr, if_pos htarget]
      exact ⟨record, rfl, hrecord⟩
    · rw [if_neg (hold id r hr ha)]
      exact hs.target id r hr ha
  · intro id id' r r' hr hr' ha ha' heq
    rw [hrequests] at hr hr'
    split at hr <;> split at hr'
    · next h h' => rw [h, h']
    · obtain rfl := Option.some.inj hr
      exact absurd (heq.symm.trans htarget) (hold id' r' hr' ha')
    · obtain rfl := Option.some.inj hr'
      exact absurd (heq.trans htarget) (hold id r hr ha)
    · exact hs.distinct id id' r r' hr hr' ha ha' heq

end Steps

/-! ## Sequences of calls -/

/-- New rows and new customers, and nothing else that merges are about. -/
structure Db.OnlyCreates (s t : Db) : Prop where
  rows : ∀ m ∈ customerReferencingModels, ∀ id a, s.ownerOf m id = some a → t.ownerOf m id = some a
  customers : ∀ id c', t.find? .customer id = some c' →
    (∃ c, s.find? .customer id = some c ∧ c'.mergeStatus = c.mergeStatus ∧
      c'.mergedIntoCustomerId = c.mergedIntoCustomerId) ∨
    c'.mergeStatus = .active ∧ c'.mergedIntoCustomerId = none
  records : t.table .customerMergeRecord = s.table .customerMergeRecord
  requests : ∀ id r, t.find? .approvalRequest id = some r → r.AwaitsMerge →
    s.find? .approvalRequest id = some r

namespace MergeCall

/-- The requests that are resolved are about merges, and the other calls create rows. -/
def Creates : MergeCall → Db → Prop
  | resolve call, s => ∀ r ∈ s.find? .approvalRequest call.requestId, r.type = .customerMerge
  | other p, s => s.OnlyCreates (p.run s).2
  | _, _ => True

/-- The merge that a call rolls back. -/
def undone? : MergeCall → Db → Option CustomerMergeRecord
  | rollback auth _ recordId reason, s =>
    (reason.filter fun text => text ≠ "").bind fun _ =>
      (s.find? .customerMergeRecord recordId).filter fun r =>
        r.institutionId = auth.institutionId ∧ r.status = .approved
  | _, _ => none

/-- A rollback finds the rows of its list with the primary customer of its merge. -/
def InPlace (call : MergeCall) (s : Db) : Prop :=
  ∀ r ∈ call.undone? s, ∀ records ∈ r.reassignedRecords, ∀ row ∈ records,
    s.ownerOf row.1 row.2 = some r.primaryCustomerId

instance (call : MergeCall) (s : Db) : Decidable (call.InPlace s) :=
  inferInstanceAs (Decidable (∀ r ∈ call.undone? s, ∀ records ∈ r.reassignedRecords,
    ∀ row ∈ records, _))

end MergeCall

/-- The customer a row was created for: the one it belongs to in the first state that has it. -/
def createdFor : List MergeCall → Db → Model → Id → Option Id
  | [], s, m, id => s.ownerOf m id
  | call :: calls, s, m, id => (s.ownerOf m id).or (createdFor calls (call.handler.run s).2 m id)

theorem createdFor_of_some (calls : List MergeCall) {s : Db} {m : Model} {id a : Id}
    (h : s.ownerOf m id = some a) : createdFor calls s m id = some a := by
  cases calls with
  | nil => exact h
  | cons call calls => rw [createdFor, h, Option.some_or]

/-- What holds after every sequence of such calls. -/
structure Db.MergesTracked (s : Db) : Prop extends s.Tracked, s.MergesPending

section Calls

variable {s t : Db}

theorem Db.MergesTracked.other (hs : s.MergesTracked) (h : s.OnlyCreates t) :
    t.MergesTracked ∧ s.CarriesHome t := by
  have hrecords : ∀ id, t.find? .customerMergeRecord id = s.find? .customerMergeRecord id :=
    fun id => by rw [Db.find?, h.records, ← Db.find?]
  refine ⟨⟨⟨?_, ?_⟩, ?_, ?_⟩, ?_⟩
  · intro recordId r row hr hlists
    rw [hrecords] at hr
    obtain ⟨hm, hthere⟩ := hs.listed recordId r row hr hlists
    obtain ⟨a, ha⟩ := Option.isSome_iff_exists.mp hthere
    exact ⟨hm, by rw [h.rows row.1 hm row.2 a ha]; rfl⟩
  · intro id c' hc'
    simp only [hrecords]
    rcases h.customers id c' hc' with ⟨c, hc, hstatus, hinto⟩ | hnew
    · rw [hstatus, hinto]
      exact hs.merged id c hc
    · exact .inl hnew
  · intro id r hr ha
    rw [hrecords]
    exact hs.target id r (h.requests id r hr ha) ha
  · intro id id' r r' hr hr' ha ha'
    exact hs.distinct id id' r r' (h.requests id r hr ha) (h.requests id' r' hr' ha') ha ha'
  · exact .of_same hs.toTracked h.rows fun row c => shifts_congr h.records

theorem Db.MergesTracked.same (hs : s.MergesTracked) : s.MergesTracked ∧ s.CarriesHome s :=
  ⟨hs, .of_same hs.toTracked (fun _ _ _ _ h => h) fun _ _ => rfl⟩

/-- The entry of the audit log. -/
theorem Db.MergesTracked.log {u : Db} (hu : u.Tracked ∧ s.CarriesHome u) (hpending : u.MergesPending)
    {m : Model} (hm : m ∉ Model.approvalRequest :: .customerMergeRecord :: mergeModels) (row : Row m) :
    (u.insert m row).MergesTracked ∧ s.CarriesHome (u.insert m row) := by
  have hsub : ∀ {ms : List Model}, (∀ m ∈ ms, m ∈ Model.approvalRequest :: .customerMergeRecord ::
      mergeModels) → u.Agree ms (u.insert m row) := fun h => (Db.Agree.insert hm u row).mono h
  have hagree := hsub fun m hm => List.mem_cons_of_mem .approvalRequest hm
  exact ⟨⟨hu.1.of_agree hagree, hpending.of_agree (hsub (by decide))⟩, hu.2.congr (.refl s) hagree⟩

/-- What a request of a merge leaves. -/
theorem tracked_requestMerge (auth : Auth) (primaryCustomerId mergedCustomerId : Id)
    (hs : s.MergesTracked) :
    (requestMerge auth primaryCustomerId mergedCustomerId).Ends
      (fun _ t => t.MergesTracked ∧ s.CarriesHome t) s := by
  apply Ends.require
  · intro _
    apply ends_query
    apply ends_query
    apply Ends.require
    · intro _
      apply ends_create
      apply ends_create
      apply ends_create
      apply Db.MergesTracked.log (m := .auditLog) ?_ ?_ (by decide)
      · obtain ⟨htracked, hhome⟩ : (s.insert .customerMergeRecord
              { institutionId := auth.institutionId
                primaryCustomerId := primaryCustomerId
                mergedCustomerId := mergedCustomerId }).Tracked ∧ s.CarriesHome _ :=
          hs.propose nofun
        have hagree : ∀ u : Db, ∀ request : ApprovalRequest,
            u.Agree (.customerMergeRecord :: mergeModels) (u.insert .approvalRequest request) :=
          fun u request => .insert (m := .approvalRequest) (by decide) u request
        exact ⟨htracked.of_agree (hagree _ _), hhome.congr (.refl s) (hagree _ _)⟩
      · exact hs.toMergesPending.request rfl rfl
    · exact fun _ => hs.same
  · exact fun _ => hs.same

/-- What a rollback leaves. -/
theorem tracked_rollbackMerge {auth : Auth} {now : DateTime} {recordId : Id}
    {reason : Option String} (hplace : MergeCall.InPlace (.rollback auth now recordId reason) s)
    (hs : s.MergesTracked) :
    (rollbackMerge auth now recordId reason).Ends
      (fun _ t => t.MergesTracked ∧ s.CarriesHome t) s := by
  apply ends_rollbackMerge
  · exact fun _ => hs.same
  · intro text record records htext hrecord hinstitution happroved hrecords
    have hundone : record ∈ MergeCall.undone? (.rollback auth now recordId reason) s := by
      show ((reason.filter fun text => text ≠ "").bind fun _ =>
        (s.find? .customerMergeRecord recordId).filter fun r =>
          r.institutionId = auth.institutionId ∧ r.status = .approved) = some record
      rw [htext, Option.bind_some, hrecord, Option.filter_some, if_pos]
      exact decide_eq_true ⟨hinstitution, happroved⟩
    apply Db.MergesTracked.log (m := .auditLog) ?_ ?_ (by decide)
    · exact hs.toTracked.rollback hrecord happroved hrecords (by simp)
        (hplace record hundone records hrecords)
    · have hagree : s.Agree [.approvalRequest, .customerMergeRecord]
          (s.rollback record.mergedCustomerId records) := by
        intro m hm
        rcases List.mem_cons.mp hm with rfl | hm
        · rw [Db.rollback, Db.table_modify_of_ne (by decide), table_giveBack fun _ _ => rfl]
        · obtain rfl := List.mem_singleton.mp hm
          rw [Db.rollback, Db.table_modify_of_ne (by decide), table_giveBack fun _ _ => rfl]
      apply (hs.toMergesPending.of_agree hagree).modify_record
      intro requestId r hr hawaits htarget
      rw [hagree.find? (by decide)] at hr
      -- the merge of a pending request is pending, and this one has been approved
      obtain ⟨record', hrecord', hpending⟩ := hs.target requestId r hr hawaits
      rw [htarget, hrecord] at hrecord'
      rw [← Option.some.inj hrecord', happroved] at hpending
      exact absurd hpending (by simp)

/-- What the decision about a merge leaves. -/
theorem tracked_resolve {call : ResolveCall} (hcreates : MergeCall.Creates (.resolve call) s)
    (hs : s.MergesTracked) :
    (call.handler.run s).2.MergesTracked ∧ s.CarriesHome (call.handler.run s).2 := by
  rcases call.run_handler_cases s with ⟨e, he⟩ | ⟨existing, t, hfound, hpending, hother, hrun, hok⟩
  · rw [he]
    exact hs.same
  obtain ⟨request, v, -, -, heffect, ht⟩ := ResolveCall.run_inTx_effect hrun
  have htype := hcreates existing hfound
  have hawaits : existing.AwaitsMerge := ⟨htype, hpending⟩
  obtain ⟨hclaimed, hfree⟩ := hs.toMergesPending.claim hfound hawaits
    call.resolve_status_ne
  have hclaim : s.Agree (.customerMergeRecord :: mergeModels)
      (s.modify .approvalRequest call.requestId call.resolve) :=
    .modify (m := .approvalRequest) (by decide) s _ _
  have htracked := hs.toTracked.of_agree hclaim
  obtain ⟨record, hrecord, hundecided⟩ := hs.target call.requestId existing hfound hawaits
  have hclaimedRecord : (s.modify .approvalRequest call.requestId call.resolve).find?
      .customerMergeRecord existing.targetId = some record := by
    rw [hclaim.find? (by decide)]
    exact hrecord
  have hbefore : record.status ≠ .approved := by
    rw [hundecided]
    simp
  rw [hok, ht]
  suffices hv : (v.Tracked ∧ (s.modify .approvalRequest call.requestId call.resolve).CarriesHome v) ∧
      v.MergesPending from
    Db.MergesTracked.log (m := .auditLog) ⟨hv.1.1, hv.1.2.congr hclaim (.refl v)⟩ hv.2 (by decide) _
  unfold ResolveCall.effect at heffect
  cases hdecision : call.decision with
  | approve =>
    simp only [hdecision, applyApproval, htype] at heffect
    obtain ⟨r, hr, -, hv⟩ := run_mergeCustomers_eq_ok heffect
    obtain rfl := Option.some.inj (hclaimedRecord.symm.trans hr)
    rw [hv]
    constructor
    · exact htracked.merge hr hbefore rfl rfl rfl rfl
    · have hagree : (s.modify .approvalRequest call.requestId call.resolve).Agree
          [.approvalRequest, .customerMergeRecord] _ :=
        agree_merge (by decide) record.primaryCustomerId record.mergedCustomerId
      apply (hclaimed.of_agree hagree).modify_record
      intro requestId r hr' ha
      rw [hagree.find? (by decide)] at hr'
      exact hfree requestId r hr' ha
  | reject =>
    simp only [hdecision, applyRejection, htype] at heffect
    rw [run_update_end_eq_ok heffect]
    constructor
    · exact htracked.reject hclaimedRecord hbefore (by simp)
    · exact hclaimed.modify_record hfree _

/-- One call. -/
theorem tracked_run {call : MergeCall} (hcreates : call.Creates s) (hplace : call.InPlace s)
    (hs : s.MergesTracked) :
    (call.handler.run s).2.MergesTracked ∧ s.CarriesHome (call.handler.run s).2 := by
  cases call with
  | request auth primaryCustomerId mergedCustomerId =>
    have hend : Ends (fun _ t => t.MergesTracked ∧ s.CarriesHome t)
        (MergeCall.handler (.request auth primaryCustomerId mergedCustomerId)) s :=
      (tracked_requestMerge auth primaryCustomerId mergedCustomerId hs).bind
        (fun _ _ h => h) fun _ _ h => h
    exact hend
  | resolve call => exact tracked_resolve hcreates hs
  | rollback auth now recordId reason => exact tracked_rollbackMerge hplace hs
  | other p => exact hs.other hcreates

/-! ## Sequences -/

variable {calls : List MergeCall}

/-- A row that is there is, after every sequence of calls, where the merges that are approved by
then have put it. -/
theorem kept_runAll (hs : s.MergesTracked)
    (hcalls : AllAlong MergeCall.handler
      (fun (call : MergeCall) s => call.Creates s ∧ call.InPlace s) calls s)
    {m : Model} (hm : m ∈ customerReferencingModels) {id a : Id} (ha : s.ownerOf m id = some a) :
    ∃ b, (runAll (calls.map MergeCall.handler) s).ownerOf m id = some b ∧
      ∀ c, owns b c - (runAll (calls.map MergeCall.handler) s).shifts (m, id) c =
        owns a c - s.shifts (m, id) c := by
  have hend := hcalls.runAll (I := fun t => t.MergesTracked ∧ ∃ b, t.ownerOf m id = some b ∧
    ∀ c, owns b c - t.shifts (m, id) c = owns a c - s.shifts (m, id) c) ?_
    ⟨hs, a, ha, fun _ => rfl⟩
  · exact hend.2
  · rintro call t ⟨hcreates, hplace⟩ ⟨ht, b, hb, hsame⟩
    obtain ⟨hafter, hhome⟩ := tracked_run hcreates hplace ht
    obtain ⟨b', hb', hsame'⟩ := hhome.kept m hm id b hb
    exact ⟨hafter, b', hb', fun c => (hsame' c).trans (hsame c)⟩

/-- A row that is created on the way was nowhere before. -/
theorem fresh_runAll (hs : s.MergesTracked)
    (hcalls : AllAlong MergeCall.handler
      (fun (call : MergeCall) s => call.Creates s ∧ call.InPlace s) calls s)
    {m : Model} (hm : m ∈ customerReferencingModels) {id b : Id} (hnone : s.ownerOf m id = none)
    (hb : (runAll (calls.map MergeCall.handler) s).ownerOf m id = some b) :
    ∃ a, createdFor calls s m id = some a ∧
      ∀ c, owns b c - (runAll (calls.map MergeCall.handler) s).shifts (m, id) c = owns a c := by
  induction calls generalizing s with
  | nil =>
    rw [List.map_nil, runAll_nil, hnone] at hb
    exact absurd hb nofun
  | cons call calls ih =>
    obtain ⟨⟨hcreates, hplace⟩, hrest⟩ := hcalls
    obtain ⟨hafter, hhome⟩ := tracked_run hcreates hplace hs
    have hcreated : createdFor (call :: calls) s m id =
        createdFor calls (call.handler.run s).2 m id := by
      rw [createdFor, hnone, Option.none_or]
    rw [hcreated]
    cases hcase : (call.handler.run s).2.ownerOf m id with
    | none => exact ih hafter hrest hcase hb
    | some a =>
      obtain ⟨b', hb', hsame⟩ := kept_runAll hafter hrest hm hcase
      refine ⟨a, createdFor_of_some calls hcase, ?_⟩
      intro c
      obtain rfl := Option.some.inj (hb.symm.trans hb')
      show owns b c - (runAll (calls.map MergeCall.handler) (call.handler.run s).2).shifts _ c = _
      rw [hsame, hhome.fresh m id hnone, sub_zero]

end Calls

/-- No merge is left that has not been rolled back. -/
def Db.AllRolledBack (s : Db) : Prop :=
  ∀ r ∈ (s.table .customerMergeRecord).values, r.status ≠ .approved

instance (s : Db) : Decidable s.AllRolledBack :=
  inferInstanceAs (Decidable (∀ r ∈ (s.table .customerMergeRecord).values, _))

theorem Db.AllRolledBack.shifts_eq_zero {s : Db} (h : s.AllRolledBack) (row : Model × Id) (c : Id) :
    s.shifts row c = 0 := by
  apply OrderedMap.total_eq_zero
  intro id r hr
  exact shift_of_not_approved (h r (OrderedMap.mem_values.mpr ⟨id, OrderedMap.get?_eq_some.mpr hr⟩))

/-- Before the first merge. -/
structure Db.Unmerged (s : Db) : Prop where
  customers : ∀ c ∈ (s.table .customer).values,
    c.mergeStatus = .active ∧ c.mergedIntoCustomerId = none
  records : (s.table .customerMergeRecord).values = []
  requests : ∀ r ∈ (s.table .approvalRequest).values, ¬ r.AwaitsMerge

theorem Db.Unmerged.allRolledBack {s : Db} (h : s.Unmerged) : s.AllRolledBack := by
  intro r hr
  rw [h.records] at hr
  exact absurd hr List.not_mem_nil

theorem Db.Unmerged.mergesTracked {s : Db} (h : s.Unmerged) : s.MergesTracked := by
  have hnothing : ∀ id, s.find? .customerMergeRecord id = none := by
    intro id
    rw [Option.eq_none_iff_forall_ne_some]
    intro r hr
    have hmem : r ∈ (s.table .customerMergeRecord).values := OrderedMap.mem_values.mpr ⟨id, hr⟩
    rw [h.records] at hmem
    exact absurd hmem List.not_mem_nil
  have hnobody : ∀ id r, s.find? .approvalRequest id = some r → ¬ r.AwaitsMerge := fun id r hr =>
    h.requests r (OrderedMap.mem_values.mpr ⟨id, hr⟩)
  refine ⟨⟨?_, ?_⟩, ?_, ?_⟩
  · intro id r row hr
    rw [hnothing] at hr
    exact absurd hr nofun
  · exact fun id c hc => .inl (h.customers c (OrderedMap.mem_values.mpr ⟨id, hc⟩))
  · exact fun id r hr ha => absurd ha (hnobody id r hr)
  · exact fun id id' r r' hr _ ha => absurd ha (hnobody id r hr)

/-- Every row belongs to the customer it was created for, and no customer has been merged. -/
structure Db.Restored (created : Model → Id → Option Id) (s : Db) : Prop where
  rows : ∀ m ∈ customerReferencingModels, ∀ id a, s.ownerOf m id = some a → created m id = some a
  customers : ∀ id c, s.find? .customer id = some c →
    c.mergeStatus = .active ∧ c.mergedIntoCustomerId = none

/-- When every merge of a sequence has been rolled back, each row belongs to the customer it was
created for again, and every customer is active, if every rollback finds the rows of its list with
the primary customer of its merge. -/
theorem rollbacks_undo_merges (calls : List MergeCall) (s : Db) (hs : s.Unmerged)
    (hcalls : AllAlong MergeCall.handler
      (fun (call : MergeCall) s => call.Creates s ∧ call.InPlace s) calls s)
    (hback : (runAll (calls.map MergeCall.handler) s).AllRolledBack) :
    (runAll (calls.map MergeCall.handler) s).Restored (createdFor calls s) := by
  have htracked := hs.mergesTracked
  have hend : (runAll (calls.map MergeCall.handler) s).MergesTracked :=
    hcalls.runAll (I := Db.MergesTracked) (fun call s h hs => (tracked_run h.1 h.2 hs).1) htracked
  constructor
  · intro m hm id b hb
    cases hfirst : s.ownerOf m id with
    | some a =>
      obtain ⟨b', hb', hsame⟩ := kept_runAll htracked hcalls hm hfirst
      obtain rfl := Option.some.inj (hb.symm.trans hb')
      have heq : b = a := owns_injective fun c => by
        have hc := hsame c
        rwa [hback.shifts_eq_zero, hs.allRolledBack.shifts_eq_zero, sub_zero, sub_zero] at hc
      rw [createdFor_of_some calls hfirst, heq]
    | none =>
      obtain ⟨a, hcreated, hsame⟩ := fresh_runAll htracked hcalls hm hfirst hb
      have heq : b = a := owns_injective fun c => by
        have hc := hsame c
        rwa [hback.shifts_eq_zero, sub_zero] at hc
      rw [hcreated, heq]
  · intro id c hc
    rcases hend.merged id c hc with hactive | ⟨recordId, r, hr, happroved, -⟩
    · exact hactive
    · exact absurd happroved (hback r (OrderedMap.mem_values.mpr ⟨recordId, hr⟩))

/-! ## Three customers -/

/-- Three customers of an institution, the first with a document. -/
def threeCustomers : Db :=
  let customer : Customer := { institutionId := 1 }
  (((Db.empty.insert .customer customer).insert .customer customer).insert .customer customer).insert
    .document (⟨1⟩ : CustomerReference)

theorem unmerged_threeCustomers : threeCustomers.Unmerged where
  customers := by decide
  records := rfl
  requests := fun r hr => absurd hr List.not_mem_nil

/-- The first is merged into the second, and then the second into the third. -/
def nestedMerges : List MergeCall :=
  [.request ⟨1, 1⟩ 2 1, .request ⟨1, 1⟩ 3 2, mergeApproval 1, mergeApproval 2]

def mergeRollback (recordId : Id) : MergeCall := .rollback ⟨1, 1⟩ 6 recordId (some "Mistake")

theorem rollbacks_undo_merges_lastFirst :
    (runAll ((nestedMerges ++ [mergeRollback 2, mergeRollback 1]).map MergeCall.handler)
      threeCustomers).Restored
        (createdFor (nestedMerges ++ [mergeRollback 2, mergeRollback 1]) threeCustomers) := by
  have hrequest : ∀ (s : Db) (requestId : Id),
      (∀ r ∈ s.find? .approvalRequest requestId, r.type = .customerMerge) →
      (mergeApproval requestId).Creates s := fun _ _ h => h
  apply rollbacks_undo_merges
  · exact unmerged_threeCustomers
  · refine ⟨⟨trivial, ?_⟩, ⟨trivial, ?_⟩, ⟨hrequest _ _ ?_, ?_⟩, ⟨hrequest _ _ ?_, ?_⟩,
      ⟨trivial, ?_⟩, ⟨trivial, ?_⟩, trivial⟩
    all_goals decide +kernel
  · decide +kernel

/-- Rolled back in the order in which they were made, the two merges leave the document of the
first customer with the second. -/
theorem rollbacks_firstFirst_misplace :
    threeCustomers.Unmerged ∧
      AllAlong MergeCall.handler MergeCall.Creates
        (nestedMerges ++ [mergeRollback 1, mergeRollback 2]) threeCustomers ∧
      (runAll ((nestedMerges ++ [mergeRollback 1, mergeRollback 2]).map MergeCall.handler)
        threeCustomers).AllRolledBack ∧
      ¬ (runAll ((nestedMerges ++ [mergeRollback 1, mergeRollback 2]).map MergeCall.handler)
        threeCustomers).Restored
          (createdFor (nestedMerges ++ [mergeRollback 1, mergeRollback 2]) threeCustomers) := by
  have hrequest : ∀ (s : Db) (requestId : Id),
      (∀ r ∈ s.find? .approvalRequest requestId, r.type = .customerMerge) →
      (mergeApproval requestId).Creates s := fun _ _ h => h
  refine ⟨unmerged_threeCustomers, ?_, by decide +kernel, ?_⟩
  · refine ⟨trivial, trivial, hrequest _ _ ?_, hrequest _ _ ?_, trivial, trivial, trivial⟩
    all_goals decide +kernel
  intro hrestored
  have hfirst : threeCustomers.ownerOf .document 1 = some 1 := by decide +kernel
  have hrow := hrestored.rows .document (by decide) 1 2 (by decide +kernel)
  rw [createdFor_of_some _ hfirst] at hrow
  exact absurd hrow (by decide)

end NexusEfos
