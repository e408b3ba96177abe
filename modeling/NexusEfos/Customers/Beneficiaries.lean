/-
The beneficiaries of a customer: what is allocated to them of a hundred per cent.

An addition adds up what is allocated before it creates its row, in a statement of its own.  A file
that is imported has its own rows added up, before they are rounded, and not those that the
customer has.  A merge adds nothing up.  So no more than everything is allocated in runs in which a row is
created where there is still room for it, and in which two customers who are merged have not
allocated more than everything between them.
-/
import NexusEfos.Customers.Import
import NexusEfos.Customers.Merges

namespace NexusEfos

open Proc

/-- What a beneficiary has of a customer. -/
def Beneficiary.share (customerId : Id) (b : Beneficiary) : Cents :=
  if b.customerId = customerId ∧ b.deletedAt = none then b.allocationPct else 0

/-- What a customer has allocated. -/
def Db.allocated (s : Db) (customerId : Id) : Cents :=
  (s.table .beneficiary).total fun _ b => b.share customerId

/-- No allocation is negative, and no customer allocates more than a hundred per cent. -/
structure Db.WithinAllocation (s : Db) : Prop where
  nonneg : ∀ id b, s.find? .beneficiary id = some b → 0 ≤ b.allocationPct
  total_le : ∀ customerId, s.allocated customerId ≤ 10000

/-- It is enough to look at the customers who have a beneficiary. -/
theorem Db.withinAllocation_iff {s : Db} : s.WithinAllocation ↔
    (∀ b ∈ (s.table .beneficiary).values, 0 ≤ (b : Beneficiary).allocationPct) ∧
      ∀ b ∈ (s.table .beneficiary).values, s.allocated (b : Beneficiary).customerId ≤ 10000 := by
  constructor
  · intro hs
    refine ⟨fun b hb => ?_, fun b _ => hs.total_le _⟩
    obtain ⟨id, hid⟩ := OrderedMap.mem_values.mp hb
    exact hs.nonneg id b hid
  · rintro ⟨hnonneg, htotal⟩
    refine ⟨fun id b hb => hnonneg b (OrderedMap.mem_values.mpr ⟨id, hb⟩), fun customerId => ?_⟩
    by_cases hhas : ∃ b ∈ (s.table .beneficiary).values, (b : Beneficiary).customerId = customerId
    · obtain ⟨b, hb, rfl⟩ := hhas
      exact htotal b hb
    · have hnone : s.allocated customerId = 0 := by
        apply OrderedMap.total_eq_zero
        intro id b hb
        apply if_neg
        intro h
        exact hhas ⟨b, OrderedMap.mem_values.mpr ⟨id, OrderedMap.get?_eq_some.mpr hb⟩, h.1⟩
      rw [hnone]
      decide

instance (s : Db) : Decidable s.WithinAllocation := decidable_of_iff _ Db.withinAllocation_iff.symm

/-- There is room for an allocation that is created, and two customers who are merged have not
allocated more than a hundred per cent between them. -/
def Access.KeepsAllocation (lab : Access) (s : Db) : Prop :=
  (∀ x ∈ lab.allocates, s.allocated x.1 + x.2 ≤ 10000) ∧
    ∀ r ∈ lab.merge? s, r.primaryCustomerId ≠ r.mergedCustomerId →
      s.allocated r.primaryCustomerId + s.allocated r.mergedCustomerId ≤ 10000

instance (lab : Access) (s : Db) : Decidable (lab.KeepsAllocation s) :=
  inferInstanceAs (Decidable ((∀ x ∈ lab.allocates, _) ∧ ∀ r ∈ lab.merge? s, _))

section Steps

variable {s t : Db}

theorem Beneficiary.share_nonneg {b : Beneficiary} (hb : 0 ≤ b.allocationPct) (customerId : Id) :
    0 ≤ b.share customerId := by
  unfold Beneficiary.share
  split
  · exact hb
  · exact le_rfl

theorem Beneficiary.share_le {b : Beneficiary} (hb : 0 ≤ b.allocationPct) (customerId : Id) :
    b.share customerId ≤ b.allocationPct := by
  unfold Beneficiary.share
  split
  · exact le_rfl
  · exact hb

theorem Db.WithinAllocation.of_agree (hs : s.WithinAllocation) (h : s.Agree [.beneficiary] t) :
    t.WithinAllocation := by
  have htable : t.table .beneficiary = s.table .beneficiary := h _ (List.mem_singleton_self _)
  constructor
  · intro id b hb
    rw [Db.find?, htable] at hb
    exact hs.nonneg id b hb
  · intro customerId
    rw [Db.allocated, htable]
    exact hs.total_le customerId

/-- A new row, where there is room for it. -/
theorem Db.WithinAllocation.insert (hs : s.WithinAllocation) {b : Beneficiary}
    (hb : 0 ≤ b.allocationPct) (hroom : s.allocated b.customerId + b.allocationPct ≤ 10000) :
    (s.insert .beneficiary b).WithinAllocation := by
  constructor
  · intro id b' hb'
    rw [Db.find?_insert] at hb'
    split at hb'
    · obtain rfl := Option.some.inj hb'
      exact hb
    · exact hs.nonneg id b' hb'
  · intro customerId
    have htotal : (s.insert .beneficiary b).allocated customerId =
        s.allocated customerId + b.share customerId := by
      rw [Db.allocated, Db.table_insert_self, OrderedMap.total_create]
      rfl
    rw [htotal]
    by_cases hcustomer : b.customerId = customerId
    · have hshare := b.share_le hb customerId
      rw [hcustomer] at hroom
      linarith
    · have hshare : b.share customerId = 0 := if_neg fun h => hcustomer h.1
      have hbefore := hs.total_le customerId
      linarith

/-- Rows change, and nobody's share grows. -/
theorem Db.WithinAllocation.modifyAll (hs : s.WithinAllocation)
    {f : Id → Beneficiary → Beneficiary}
    (hpct : ∀ id b, (f id b).allocationPct = b.allocationPct)
    (hshare : ∀ id b customerId, 0 ≤ b.allocationPct →
      (f id b).share customerId ≤ b.share customerId) :
    (s.modifyAll .beneficiary f).WithinAllocation := by
  constructor
  · intro id b hb
    rw [Db.find?, Db.table_modifyAll_self, OrderedMap.get?_updateAll] at hb
    obtain ⟨b₀, hb₀, rfl⟩ := Option.map_eq_some_iff.mp hb
    rw [hpct]
    exact hs.nonneg id b₀ hb₀
  · intro customerId
    rw [Db.allocated, Db.table_modifyAll_self, OrderedMap.total_updateAll]
    apply le_trans _ (hs.total_le customerId)
    apply OrderedMap.total_le_total
    intro id b hb
    exact hshare id b customerId (hs.nonneg id b (OrderedMap.get?_eq_some.mpr hb))

/-- The share of a customer in a row that moves. -/
theorem share_moveRow (primary merged customerId id : Id) (b : Beneficiary) :
    (moveRow .beneficiary primary merged id b : Beneficiary).share customerId =
      if b.customerId = merged then
        if primary = customerId then b.share merged else 0
      else b.share customerId := by
  by_cases hmoved : b.customerId = merged
  · have howned : customerIdOf .beneficiary b = some merged := congrArg some hmoved
    rw [if_pos hmoved, moveRow, if_pos howned]
    show (if primary = customerId ∧ b.deletedAt = none then b.allocationPct else 0) = _
    unfold Beneficiary.share
    simp only [hmoved, true_and]
    split_ifs <;> simp_all
  · have hkept : customerIdOf .beneficiary b ≠ some merged := fun h => hmoved (Option.some.inj h)
    rw [if_neg hmoved, moveRow, if_neg hkept]

/-- The rows of one customer become those of another. -/
theorem Db.WithinAllocation.merge (hs : s.WithinAllocation) {primary merged : Id}
    (hroom : primary ≠ merged → s.allocated primary + s.allocated merged ≤ 10000) :
    (s.merge primary merged).WithinAllocation := by
  have htable : (s.merge primary merged).table .beneficiary =
      (s.table .beneficiary).updateAll (moveRow .beneficiary primary merged) :=
    table_merge_of_mem (by decide)
  constructor
  · intro id b hb
    rw [Db.find?, htable, OrderedMap.get?_updateAll] at hb
    obtain ⟨b₀, hb₀, rfl⟩ := Option.map_eq_some_iff.mp hb
    have hsame : (moveRow .beneficiary primary merged id b₀ : Beneficiary).allocationPct =
        (b₀ : Beneficiary).allocationPct := by
      unfold moveRow
      split <;> rfl
    rw [hsame]
    exact hs.nonneg id b₀ hb₀
  · intro customerId
    rw [Db.allocated, htable, OrderedMap.total_updateAll]
    by_cases hboth : customerId = primary ∧ primary ≠ merged
    · obtain ⟨rfl, hne⟩ := hboth
      apply le_trans _ (hroom hne)
      rw [Db.allocated, Db.allocated, ← OrderedMap.total_add]
      apply OrderedMap.total_le_total
      intro id b hb
      have hb0 : 0 ≤ (b : Beneficiary).allocationPct :=
        hs.nonneg id b (OrderedMap.get?_eq_some.mpr hb)
      have hown := b.share_nonneg hb0 customerId
      have hother := b.share_nonneg hb0 merged
      rw [share_moveRow]
      split_ifs <;> linarith
    · apply le_trans _ (hs.total_le customerId)
      apply OrderedMap.total_le_total
      intro id b hb
      have hb0 : 0 ≤ (b : Beneficiary).allocationPct :=
        hs.nonneg id b (OrderedMap.get?_eq_some.mpr hb)
      have hown := b.share_nonneg hb0 customerId
      rw [share_moveRow]
      by_cases hprimary : primary = customerId
      · have hmerged : primary = merged := by
          by_contra hne
          exact hboth ⟨hprimary.symm, hne⟩
        rw [if_pos hprimary, ← hmerged, hprimary, ite_self]
      · rw [if_neg hprimary]
        split_ifs <;> linarith

/-- What a statement does to the beneficiaries, if it is one that keeps within what there is to
allocate. -/
def AllocationStep (lab : Access) (s t : Db) : Prop :=
  lab.KeepsAllocation s → s.WithinAllocation → t.WithinAllocation

theorem AllocationStep.of_quiet {α : Type} {p : Handler α} (hp : Quiet [.beneficiary] p) :
    p.EveryStep AllocationStep :=
  .of_every (fun _ _ _ hagree _ hs => hs.of_agree hagree) hp

/-- A statement that creates a beneficiary, and says so. -/
theorem AllocationStep.create {b : Beneficiary} {x : Id × Cents}
    (hx : x = (b.customerId, b.allocationPct)) (hb : 0 ≤ b.allocationPct) :
    (createAs { allocates := some x } .beneficiary b).EveryStep AllocationStep := by
  subst hx
  exact ⟨fun _ hlab hs => hs.insert hb (hlab.1 _ rfl), fun _ => trivial⟩

theorem AllocationStep.addBeneficiary (toText : ℚ → String) (auth : Auth) (customerId : Id)
    (body : BeneficiaryBody) :
    (addBeneficiary toText auth customerId body).EveryStep AllocationStep := by
  apply EveryStep.require_bind
  intro hvalid
  refine (of_quiet (Quiet.query _)).bind fun _ => ?_
  refine (EveryStep.orFail _ _).bind fun _ => ?_
  refine (of_quiet (Quiet.query _)).bind fun _ => ?_
  refine (EveryStep.require _ _).bind fun _ => ?_
  apply EveryStep.bind
  · exact create rfl (ofNumber_nonneg hvalid.2.2.1)
  · intro _
    exact of_quiet ((Quiet.create (by decide) _).bind fun _ => Quiet.pure _)

theorem AllocationStep.removeBeneficiary (auth : Auth) (now : DateTime)
    (customerId beneficiaryId : Id) :
    (removeBeneficiary auth now customerId beneficiaryId).EveryStep AllocationStep := by
  refine (of_quiet (Quiet.query _)).bind fun _ => ?_
  refine (EveryStep.orFail _ _).bind fun _ => EveryStep.bind ?_ fun _ => trivial
  refine ⟨fun s _ hs => hs.modifyAll ?_ ?_, fun _ => trivial⟩
  · intro id b
    dsimp only
    split <;> rfl
  · intro id b c hb
    dsimp only
    split
    · have hdeleted : Beneficiary.share c { b with deletedAt := some now } = 0 := if_neg nofun
      rw [hdeleted]
      exact b.share_nonneg hb c
    · exact le_rfl

theorem AllocationStep.commitCustomers (trimLower : String → String) (toText : ℚ → String)
    (auth : Auth) (customerNumber : CustomerRow → String)
    (resolutions : String → Option DuplicateResolution) (parsed : CustomerWorkbook)
    (now : DateTime) :
    (commitCustomers trimLower toText auth customerNumber resolutions parsed now).EveryStep
      AllocationStep := by
  have hread : ∀ s, AllocationStep {} s s := fun _ _ hs => hs
  apply everyStep_commitCustomers hread
  · intro batchId number r
    apply everyStep_importCustomer hread
    · apply of_quiet
      refine ⟨fun s => ?_, fun _ => trivial⟩
      dsimp only
      split
      · exact .refl s
      · exact .insert (m := .customer) (by decide) s _
    · intro customerId
      exact of_quiet ((Quiet.updateAs (by decide) _ _ _).bind fun _ => Quiet.pure _)
  · exact fun _ _ => of_quiet (Quiet.update (by decide) _ _)
  · intro customerId row ⟨pct, hpct, hpos, _⟩
    unfold createImportedBeneficiary
    apply create
    · rfl
    · show 0 ≤ ofNumber (row.allocationPct.getD 0)
      rw [hpct]
      exact ofNumber_nonneg hpos.le
  · intro m row hm
    exact of_quiet (Quiet.create (by revert hm; cases m <;> decide) row)

theorem AllocationStep.resolve (call : ResolveCall) : call.handler.EveryStep AllocationStep := by
  apply call.everyStep
  · exact fun _ _ _ hs => hs
  · intro existing s t hrun hlab hs
    have hwrites : ∀ type, type ≠ ApprovalRequestType.customerMerge →
        ∀ m ∈ approvalWrites type, m ∉ [Model.beneficiary] := by
      intro type htype
      revert htype
      cases type <;> decide
    rcases run_inTx_merge (by decide) hwrites hrun with hagree | ⟨r, hr, hmerged⟩
    · exact hs.of_agree hagree
    · exact (hs.merge (hlab.2 r hr)).of_agree hmerged

end Steps

/-! ## Runs of the calls -/

/-- The calls of a run.  The last constructor stands for every other endpoint. -/
inductive AllocationCall
  | add (toText : ℚ → String) (auth : Auth) (customerId : Id) (body : BeneficiaryBody)
  | remove (auth : Auth) (now : DateTime) (customerId beneficiaryId : Id)
  | commit (trimLower : String → String) (toText : ℚ → String) (auth : Auth)
      (customerNumber : CustomerRow → String) (resolutions : String → Option DuplicateResolution)
      (parsed : CustomerWorkbook) (now : DateTime)
  | resolve (call : ResolveCall)
  | other (p : Handler Unit) (h : Quiet [.beneficiary] p)

def AllocationCall.handler : AllocationCall → Handler Unit
  | add toText auth customerId body => do
    let _ ← addBeneficiary toText auth customerId body
  | remove auth now customerId beneficiaryId => removeBeneficiary auth now customerId beneficiaryId
  | commit trimLower toText auth customerNumber resolutions parsed now => do
    let _ ← commitCustomers trimLower toText auth customerNumber resolutions parsed now
  | resolve call => call.handler
  | other p _ => p

theorem AllocationCall.everyStep (call : AllocationCall) :
    call.handler.EveryStep AllocationStep := by
  cases call with
  | add toText auth customerId body =>
    exact (AllocationStep.addBeneficiary toText auth customerId body).bind fun _ => trivial
  | remove auth now customerId beneficiaryId =>
    exact AllocationStep.removeBeneficiary auth now customerId beneficiaryId
  | commit trimLower toText auth customerNumber resolutions parsed now =>
    exact (AllocationStep.commitCustomers trimLower toText auth customerNumber resolutions
      parsed now).bind fun _ => trivial
  | resolve call => exact AllocationStep.resolve call
  | other p h => exact AllocationStep.of_quiet h

section Runs

variable {ι : Type} [DecidableEq ι]

def allocationPool (calls : ι → AllocationCall) (s : Db) : Pool ι Access Db Failure Unit :=
  ⟨fun i => (calls i).handler, s⟩

/-- In every state of a run in which a beneficiary is created where there is room for the
allocation, and two customers who are merged have not allocated more than a hundred per cent
between them, no customer allocates more than a hundred per cent. -/
theorem allocations_within_hundred (calls : ι → AllocationCall) (s : Db) (hs : s.WithinAllocation)
    {sched : List ι} (hallowed : (allocationPool calls s).Allowed Access.KeepsAllocation sched)
    (customerId : Id) : ((allocationPool calls s).run sched).state.allocated customerId ≤ 10000 := by
  have hcalls : ∀ i, ((allocationPool calls s).threads i).EveryStep AllocationStep :=
    fun i => (calls i).everyStep
  have hkeeps : s.WithinAllocation → ((allocationPool calls s).run sched).state.WithinAllocation :=
    Pool.run_rel (R := fun s t => s.WithinAllocation → t.WithinAllocation) (fun _ h => h)
      (fun h h' hs => h' (h hs)) (fun _ _ _ hstep hlab => hstep hlab) hcalls hallowed
  exact (hkeeps hs).total_le customerId

end Runs

/-- What an addition finds allocated. -/
theorem sum_beneficiaries (s : Db) (customerId : Id) :
    ((((s.table .beneficiary).entries.filter fun e =>
      decide ((e.2 : Beneficiary).customerId = customerId) && e.2.deletedAt.isNone).map
        fun e => toNumber e.2.allocationPct).sum) = toNumber (s.allocated customerId) := by
  rw [OrderedMap.sum_map_filter, Db.allocated, OrderedMap.total, toNumber_sum, List.map_map]
  congr 1
  apply List.map_congr_left
  intro e _
  show (if _ then _ else _) = toNumber (Beneficiary.share customerId e.2)
  unfold Beneficiary.share
  simp only [Bool.and_eq_true, decide_eq_true_eq, Option.isNone_iff_eq_none]
  split_ifs
  · rfl
  · exact toNumber_zero.symm

/-- An addition with nothing else in between creates its row where there is room for it. -/
theorem addBeneficiary_meets (toText : ℚ → String) (auth : Auth) (customerId : Id)
    (body : BeneficiaryBody) (s : Db) :
    (addBeneficiary toText auth customerId body).Meets Access.KeepsAllocation s := by
  have hnomerge : ∀ lab : Access, lab.resolves = none → ∀ t : Db, ∀ r ∈ lab.merge? t,
      r.primaryCustomerId ≠ r.mergedCustomerId →
        t.allocated r.primaryCustomerId + t.allocated r.mergedCustomerId ≤ 10000 := by
    intro lab hlab t r hr
    rw [merge?_of_resolves hlab] at hr
    exact absurd hr (Option.not_mem_none r)
  have hreads : ∀ t : Db, ({} : Access).KeepsAllocation t := fun t =>
    ⟨fun x hx => absurd hx (Option.not_mem_none x), hnomerge _ rfl t⟩
  apply Meets.require
  intro _
  apply meets_query (hreads s)
  apply Meets.orFail
  intro _ _
  apply meets_query (hreads s)
  apply Meets.require
  intro htotal
  refine ⟨⟨?_, hnomerge _ rfl s⟩, hreads _, trivial⟩
  intro x hx
  obtain rfl := Option.some.inj hx
  rw [sum_beneficiaries] at htotal
  have hpct : body.allocationPct ≤ toNumber (10000 - s.allocated customerId) := by
    rw [toNumber_sub]
    have hundred : toNumber 10000 = 100 := by norm_num [toNumber]
    linarith
  have hcents := ofNumber_le_ofNumber hpct
  rw [ofNumber_toNumber] at hcents
  show s.allocated customerId + ofNumber body.allocationPct ≤ 10000
  linarith

/-! ## More than everything -/

/-- Two customers to be merged, each with a beneficiary who has sixty per cent. -/
def allocationBook : Db :=
  let record : CustomerMergeRecord :=
    { institutionId := 1, primaryCustomerId := 1, mergedCustomerId := 2 }
  let request : ApprovalRequest :=
    { institutionId := 1, type := .customerMerge, targetType := "CustomerMergeRecord", targetId := 1,
      requestedById := 1 }
  let customers := (Db.empty.insert .customer
    ({ institutionId := 1, profile := { phone := "0244111221" } } : Customer)).insert .customer
      ({ institutionId := 1, profile := { phone := "0244111222" } } : Customer)
  let beneficiaries := (customers.insert .beneficiary
    ({ customerId := 1, allocationPct := 6000 } : Beneficiary)).insert .beneficiary
      ({ customerId := 2, allocationPct := 6000 } : Beneficiary)
  ((beneficiaries.insert .branch ({ institutionId := 1, name := "main", code := "HQ" } : Branch)).insert .customerMergeRecord
    record).insert .approvalRequest request

/-- A file with a customer and beneficiaries. -/
def beneficiaryFile (phone : String) (allocations : List ℚ) : CustomerWorkbook :=
  { customers :=
      [{ rowNumber := 2, fullName := "Ama Mensah", phone, segment := "INDIVIDUAL", branch := "main" }]
    beneficiaries := allocations.map fun pct =>
      { rowNumber := 2, customerPhone := phone, fullName := "Kofi Mensah",
        relationship := "Brother", allocationPct := some pct } }

/-- Two additions for the first customer, the merge, a file that updates the first customer, and a
file with a new one. -/
def allocationCalls : Fin 5 → AllocationCall
  | 0 => .add toString ⟨1, 1⟩ 1 ⟨"Esi Mensah", "Sister", 40, none⟩
  | 1 => .add toString ⟨1, 2⟩ 1 ⟨"Yaw Mensah", "Brother", 40, none⟩
  | 2 => .resolve { decision := .approve, auth := ⟨1, 2⟩, now := 5, requestId := 1 }
  | 3 => .commit id toString ⟨1, 1⟩ (fun _ => "CUST-1") (fun _ => some .update)
      (beneficiaryFile "0244111221" [50]) 10
  | 4 => .commit id toString ⟨1, 1⟩ (fun _ => "CUST-2") (fun _ => none)
      (beneficiaryFile "0244111223" [33 + 33 / 100, 33 + 335 / 1000, 33 + 335 / 1000]) 10

/-- The first addition finds room, the second does not. -/
theorem allocations_within_hundred_oneAfterTheOther :
    ((allocationPool allocationCalls allocationBook).run
      (List.replicate 4 0 ++ List.replicate 4 1)).state.allocated 1 ≤ 10000 :=
  allocations_within_hundred allocationCalls allocationBook (by decide +kernel) (by decide +kernel) 1

/-- Two additions that both find room, a merge, a file that adds to what a customer has allocated,
and a file whose percentages are rounded up. -/
theorem allocations_beyond_hundred :
    allocationBook.WithinAllocation ∧
      ((allocationPool allocationCalls allocationBook).run [0, 0, 1, 1, 0, 1]).state.allocated 1 =
        14000 ∧
      ((allocationPool allocationCalls allocationBook).run (List.replicate 2 2)).state.allocated 1 =
        12000 ∧
      ((allocationPool allocationCalls allocationBook).run (List.replicate 6 3)).state.allocated 1 =
        11000 ∧
      ((allocationPool allocationCalls allocationBook).run (List.replicate 8 4)).state.allocated 3 =
        10001 := by
  decide +kernel

end NexusEfos
