/-
The commission of a collector: the last endpoints of `routes/collections.routes.ts`.

A commission record stores what the collections of a period come to when it is calculated.
Which collections these were is not stored, so it is kept in the history of a run.  A record
is paid by an approval later on.  Nothing keeps two records from counting the same collection,
or a collection from being reversed in between: it takes periods that share no collection, and
reversals that come before the calculation or after the payment.
-/
import NexusEfos.Approvals.Requests
import NexusEfos.Collections.Settlements
import Mathlib.Data.Fin.VecNotation

namespace NexusEfos

open Proc

/-! ## The endpoint -/

/-- `calcSchema`. -/
structure CalculateCommission where
  collectorId : Id
  structureId : Id
  periodStart : DateTime
  periodEnd : DateTime

/-- `POST /commission-records/calculate`. -/
def calculateCommission (auth : Auth) (body : CalculateCommission) : Handler Id := do
  let found ← findById .commissionStructure body.structureId fun x =>
    decide (x.institutionId = auth.institutionId) && x.active
  let structure_ ← Proc.orFail found (.http 404 "Active commission structure not found")
  let txns ← findMany .collectionTransaction fun _ c =>
    c.collectorId = body.collectorId ∧ c.status = .completed ∧ body.periodStart ≤ c.collectedAt ∧
      c.collectedAt ≤ body.periodEnd
  let totalCollected := (txns.map fun c => toNumber c.2.amount).sum
  let collectionCount := txns.length
  let commissionAmount := match structure_.type with
    | .percentageOfCollections => round2 (totalCollected * (structure_.rate / 100))
    | .fixedPerCollection => round2 (collectionCount * structure_.rate)
  createAs
    { commission := some
        ⟨body.collectorId, body.periodStart, body.periodEnd, txns.map fun c => c.1⟩ }
    .commissionRecord
    { institutionId := auth.institutionId, collectorId := body.collectorId,
      structureId := body.structureId, periodStart := body.periodStart,
      periodEnd := body.periodEnd, totalCollected := ofNumber totalCollected, collectionCount,
      commissionAmount := ofNumber commissionAmount }

/-! ## What is to hold -/

/-- The collection is one of the record's collector and period. -/
def CommissionRecord.Covers (r : CommissionRecord) (c : CollectionTransaction) : Prop :=
  c.collectorId = r.collectorId ∧ r.periodStart ≤ c.collectedAt ∧ c.collectedAt ≤ r.periodEnd

instance CommissionRecord.decidableCovers (r : CommissionRecord) (c : CollectionTransaction) :
    Decidable (r.Covers c) := inferInstanceAs (Decidable (_ ∧ _))

/-- Whose record it is, and its period. -/
def CommissionRecord.span (r : CommissionRecord) : Id × DateTime × DateTime :=
  (r.collectorId, r.periodStart, r.periodEnd)

/-- A record that is calculated, and the collections that it counts. -/
abbrev CommissionCount := Id × List Id

/-- The records that a run calculates. -/
def commissionEvents (lab : Access) (s t : Db) : List CommissionCount :=
  if Db.Creates .commissionRecord s t then
    lab.commission.toList.map fun x => (s.nextId .commissionRecord, x.counted)
  else []

namespace Db

variable {s t : Db} {past : List CommissionCount}

/-- No collection is counted in two PAID records of a collector. -/
def PaidOnce (s : Db) (past : List CommissionCount) : Prop :=
  ∀ e ∈ past, ∀ e' ∈ past, e.1 ≠ e'.1 → ∀ r ∈ s.find? .commissionRecord e.1,
    ∀ r' ∈ s.find? .commissionRecord e'.1, r.status = .paid → r'.status = .paid →
      r.collectorId = r'.collectorId → ∀ id ∈ e.2, id ∉ e'.2

instance (s : Db) (past : List CommissionCount) : Decidable (s.PaidOnce past) :=
  inferInstanceAs (Decidable (∀ e ∈ past, _))

/-- No collection that a record counts is REVERSED when the record becomes PAID. -/
def PaysCompleted (past : List CommissionCount) (s t : Db) : Prop :=
  ∀ e ∈ past, ∀ r ∈ s.find? .commissionRecord e.1, ∀ r' ∈ t.find? .commissionRecord e.1,
    r.status ≠ .paid → r'.status = .paid → ∀ id ∈ e.2, ∀ c ∈ t.find? .collectionTransaction id,
      c.status ≠ .reversed

instance (past : List CommissionCount) (s t : Db) : Decidable (PaysCompleted past s t) :=
  inferInstanceAs (Decidable (∀ e ∈ past, _))

/-- A counted collection is one of the record's, and COMPLETED as long as the record is not
PAID. -/
def CountedIn (s : Db) (r : CommissionRecord) (id : Id) : Prop :=
  ∃ c, s.find? .collectionTransaction id = some c ∧ r.Covers c ∧
    (r.status ≠ .paid → c.status = .completed)

/-- The calculated records. -/
structure CommissionsSound (s : Db) (past : List CommissionCount) : Prop where
  counted : ∀ e ∈ past, ∃ r, s.find? .commissionRecord e.1 = some r ∧ ∀ id ∈ e.2, s.CountedIn r id
  once : s.PaidOnce past

theorem commissionsSound_nil (s : Db) : s.CommissionsSound [] where
  counted := fun _ he => absurd he List.not_mem_nil
  once := fun _ he => absurd he List.not_mem_nil

end Db

/-! ## Statements -/

/-- The commission record whose status a statement sets, and to what. -/
def Access.setsCommission (lab : Access) (s : Db) : Option (Id × CommissionStatus) :=
  match lab.requestsPayment with
  | some recordId => some (recordId, .pendingApproval)
  | none =>
    lab.resolves.bind fun x =>
      if x.request.type = .commissionPayment ∧
          (s.find? .approvalRequest x.requestId).any fun r => r.status = .pending then
        some (x.request.targetId, if x.approved then .paid else .pending)
      else none

/-- What a statement does to collections and commission records. -/
inductive CommissionStep (lab : Access) (s t : Db) : Prop
  | keeps (hcollections : Db.SameOn .collectionTransaction CollectionTransaction.facts s t)
      (hrecords : t.table .commissionRecord = s.table .commissionRecord)
  | collects (c : CollectionTransaction)
      (hcollections : t.table .collectionTransaction = (s.table .collectionTransaction).create c)
      (hrecords : t.table .commissionRecord = s.table .commissionRecord)
  | marks (id : Id) (f : CollectionTransaction → CollectionTransaction) (hlab : lab.marks = some id)
      (hf : ∀ c, (f c).collectorId = c.collectorId ∧ (f c).collectedAt = c.collectedAt)
      (hcollections : t.table .collectionTransaction = (s.table .collectionTransaction).modify id f)
      (hrecords : t.table .commissionRecord = s.table .commissionRecord)
  | calculates (counted : List Id) (r : CommissionRecord)
      (hlab : lab.commission = some ⟨r.collectorId, r.periodStart, r.periodEnd, counted⟩)
      (hpending : r.status = .pending)
      (hcollections : t.table .collectionTransaction = s.table .collectionTransaction)
      (hrecords : t.table .commissionRecord = (s.table .commissionRecord).create r)
  | sets (id : Id) (status : CommissionStatus) (f : CommissionRecord → CommissionRecord)
      (hlab : lab.setsCommission s = some (id, status))
      (hf : ∀ r, (f r).span = r.span ∧ (f r).status = status)
      (hcollections : t.table .collectionTransaction = s.table .collectionTransaction)
      (hrecords : t.table .commissionRecord = (s.table .commissionRecord).modify id f)

/-- No collection is covered by the record and by another PAID record of its collector. -/
def Db.SharesNone (s : Db) (id : Id) (r : CommissionRecord) : Prop :=
  ∀ e ∈ (s.table .commissionRecord).entries, e.1 ≠ id → e.2.status = .paid →
    ∀ c ∈ (s.table .collectionTransaction).values, ¬ (r.Covers c ∧ e.2.Covers c)

instance (s : Db) (id : Id) (r : CommissionRecord) : Decidable (s.SharesNone id r) :=
  inferInstanceAs (Decidable (∀ e ∈ (s.table .commissionRecord).entries, _))

/-- A COMPLETED collection is reversed only if every record that covers it is PAID, a record is stored only
if what it counts is still COMPLETED, a record becomes PAID only if it shares no collection with
another PAID record, and a PAID record does not become unpaid. -/
def Access.KeepsCommissions (lab : Access) (s : Db) : Prop :=
  (∀ id ∈ lab.marks, ∀ c ∈ s.find? .collectionTransaction id, c.status = .completed →
      ∀ r ∈ (s.table .commissionRecord).values, r.Covers c → r.status = .paid) ∧
    (∀ x ∈ lab.commission, ∀ id ∈ x.counted, ∃ c ∈ s.find? .collectionTransaction id,
      c.collectorId = x.collectorId ∧ c.status = .completed ∧ x.periodStart ≤ c.collectedAt ∧
        c.collectedAt ≤ x.periodEnd) ∧
    ∀ x ∈ lab.setsCommission s, ∀ r ∈ s.find? .commissionRecord x.1,
      if x.2 = .paid then s.SharesNone x.1 r else r.status ≠ .paid

instance (lab : Access) (s : Db) : Decidable (lab.KeepsCommissions s) :=
  inferInstanceAs (Decidable (_ ∧ _ ∧ _))

section Steps

variable {lab : Access} {s t : Db} {past : List CommissionCount}

theorem CommissionRecord.covers_congr {r : CommissionRecord} {c c' : CollectionTransaction}
    (hcollector : c'.collectorId = c.collectorId) (hdate : c'.collectedAt = c.collectedAt) :
    r.Covers c' ↔ r.Covers c := by
  unfold Covers
  rw [hcollector, hdate]

theorem commissionEvents_eq_nil
    (h : ∀ id, (t.find? .commissionRecord id).isSome = (s.find? .commissionRecord id).isSome) :
    commissionEvents lab s t = [] := by
  apply if_neg
  unfold Db.Creates
  rw [h, show s.find? .commissionRecord (s.nextId .commissionRecord) = none from
    OrderedMap.get?_nextKey _]
  exact nofun

/-- What a statement does that leaves the records alone. -/
theorem Db.CommissionsSound.of_kept (h : s.CommissionsSound past)
    (hrecords : t.table .commissionRecord = s.table .commissionRecord)
    (hkept : ∀ id c, s.find? .collectionTransaction id = some c →
      ∃ c', t.find? .collectionTransaction id = some c' ∧ c'.collectorId = c.collectorId ∧
        c'.collectedAt = c.collectedAt ∧ (c.status = .completed →
          (∃ r ∈ (s.table .commissionRecord).values, r.Covers c ∧ r.status ≠ .paid) →
            c'.status = .completed)) :
    t.CommissionsSound (past ++ commissionEvents lab s t) ∧
      PaysCompleted (past ++ commissionEvents lab s t) s t := by
  have hfind : ∀ id, t.find? .commissionRecord id = s.find? .commissionRecord id := by
    intro id
    rw [find?, hrecords, find?]
  rw [commissionEvents_eq_nil fun id => by rw [hfind], List.append_nil]
  refine ⟨⟨?_, ?_⟩, ?_⟩
  · intro e he
    obtain ⟨r, hr, hcounted⟩ := h.counted e he
    refine ⟨r, (hfind e.1).trans hr, ?_⟩
    intro id hid
    obtain ⟨c, hc, hcovers, hcompleted⟩ := hcounted id hid
    obtain ⟨c', hc', hcollector, hdate, hstays⟩ := hkept id c hc
    refine ⟨c', hc', (CommissionRecord.covers_congr hcollector hdate).mpr hcovers, ?_⟩
    intro hunpaid
    exact hstays (hcompleted hunpaid) ⟨r, OrderedMap.mem_values.mpr ⟨e.1, hr⟩, hcovers, hunpaid⟩
  · intro e he e' he' hne r hr r' hr'
    rw [hfind] at hr hr'
    exact h.once e he e' he' hne r hr r' hr'
  · intro e _ r hr r' hr' hunpaid hpaid
    rw [hfind, hr] at hr'
    rw [Option.some.inj hr'] at hunpaid
    exact absurd hpaid hunpaid

/-- A record is stored. -/
theorem Db.CommissionsSound.calculate (h : s.CommissionsSound past) {counted : List Id}
    {new : CommissionRecord} (hpending : new.status = .pending)
    (hlab : lab.commission = some ⟨new.collectorId, new.periodStart, new.periodEnd, counted⟩)
    (hcompleted : ∀ id ∈ counted, ∃ c ∈ s.find? .collectionTransaction id,
      c.collectorId = new.collectorId ∧ c.status = .completed ∧ new.periodStart ≤ c.collectedAt ∧
        c.collectedAt ≤ new.periodEnd)
    (hcollections : t.table .collectionTransaction = s.table .collectionTransaction)
    (hrecords : t.table .commissionRecord = (s.table .commissionRecord).create new) :
    t.CommissionsSound (past ++ commissionEvents lab s t) ∧
      PaysCompleted (past ++ commissionEvents lab s t) s t := by
  have hcollection : ∀ id, t.find? .collectionTransaction id = s.find? .collectionTransaction id := by
    intro id
    rw [find?, hcollections, find?]
  have hfind : ∀ id, t.find? .commissionRecord id =
      if id = s.nextId .commissionRecord then some new else s.find? .commissionRecord id := by
    intro id
    rw [find?, hrecords, OrderedMap.get?_create]
    rfl
  have hfresh : s.find? .commissionRecord (s.nextId .commissionRecord) = none :=
    OrderedMap.get?_nextKey _
  have hold : ∀ {id r}, s.find? .commissionRecord id = some r →
      t.find? .commissionRecord id = some r := by
    intro id r hr
    rw [hfind, if_neg, hr]
    intro hid
    rw [hid, hfresh] at hr
    exact absurd hr (by simp)
  have hevents : commissionEvents lab s t = [(s.nextId .commissionRecord, counted)] := by
    have hcreates : Creates .commissionRecord s t :=
      creates_insert (hrecords.trans (table_insert_self s .commissionRecord new).symm)
    rw [commissionEvents, if_pos hcreates, hlab]
    rfl
  -- A record that is PAID afterwards was PAID before.
  have hpaid : ∀ {id r}, t.find? .commissionRecord id = some r → r.status = .paid →
      s.find? .commissionRecord id = some r := by
    intro id r hr hstatus
    rw [hfind] at hr
    split at hr
    · rw [← Option.some.inj hr, hpending] at hstatus
      exact absurd hstatus (by simp)
    · exact hr
  have hbefore : ∀ {e r}, e ∈ past ++ [(s.nextId .commissionRecord, counted)] →
      s.find? .commissionRecord e.1 = some r → e ∈ past := by
    intro e r he hr
    rcases List.mem_append.mp he with he | he
    · exact he
    · rw [List.mem_singleton.mp he, hfresh] at hr
      exact absurd hr (by simp)
  rw [hevents]
  refine ⟨⟨?_, ?_⟩, ?_⟩
  · intro e he
    rcases List.mem_append.mp he with he | he
    · obtain ⟨r, hr, hin⟩ := h.counted e he
      refine ⟨r, hold hr, ?_⟩
      intro id hid
      obtain ⟨c, hc, hrest⟩ := hin id hid
      exact ⟨c, (hcollection id).trans hc, hrest⟩
    · rw [List.mem_singleton.mp he]
      refine ⟨new, (hfind _).trans (if_pos rfl), ?_⟩
      intro id hid
      obtain ⟨c, hc, hcollector, hstatus, hstart, hend⟩ := hcompleted id hid
      exact ⟨c, (hcollection id).trans hc, ⟨hcollector, hstart, hend⟩, fun _ => hstatus⟩
  · intro e he e' he' hne r hr r' hr' hrpaid hrpaid'
    have hr₀ := hpaid hr hrpaid
    have hr₀' := hpaid hr' hrpaid'
    exact h.once e (hbefore he hr₀) e' (hbefore he' hr₀') hne r hr₀ r' hr₀' hrpaid hrpaid'
  · intro e _ r hr r' hr' hunpaid hrpaid
    have hsame := hpaid hr' hrpaid
    rw [hr] at hsame
    rw [Option.some.inj hsame] at hunpaid
    exact absurd hrpaid hunpaid

/-- The status of a record is set. -/
theorem Db.CommissionsSound.setStatus (h : s.CommissionsSound past) {recordId : Id}
    {status : CommissionStatus} {f : CommissionRecord → CommissionRecord}
    (hf : ∀ r, (f r).span = r.span ∧ (f r).status = status)
    (hsets : ∀ r ∈ s.find? .commissionRecord recordId,
      if status = .paid then s.SharesNone recordId r else r.status ≠ .paid)
    (hcollections : t.table .collectionTransaction = s.table .collectionTransaction)
    (hrecords : t.table .commissionRecord = (s.table .commissionRecord).modify recordId f) :
    t.CommissionsSound (past ++ commissionEvents lab s t) ∧
      PaysCompleted (past ++ commissionEvents lab s t) s t := by
  have hcollection : ∀ id, t.find? .collectionTransaction id = s.find? .collectionTransaction id := by
    intro id
    rw [find?, hcollections, find?]
  have hfind : ∀ id, t.find? .commissionRecord id =
      if id = recordId then (s.find? .commissionRecord id).map f
      else s.find? .commissionRecord id := by
    intro id
    rw [find?, hrecords, OrderedMap.get?_modify]
    rfl
  have hevents : commissionEvents lab s t = [] := by
    apply commissionEvents_eq_nil
    intro id
    rw [hfind]
    split
    · exact Option.isSome_map
    · rfl
  have hcovers : ∀ r c, (f r).Covers c ↔ r.Covers c := by
    intro r c
    obtain ⟨hcollector, hstart, hend⟩ : (f r).collectorId = r.collectorId ∧
        (f r).periodStart = r.periodStart ∧ (f r).periodEnd = r.periodEnd := by
      have hspan := (hf r).1
      simpa [CommissionRecord.span] using hspan
    unfold CommissionRecord.Covers
    rw [hcollector, hstart, hend]
  have hset : ∀ {id r'}, t.find? .commissionRecord id = some r' → ∃ r,
      s.find? .commissionRecord id = some r ∧ (id = recordId ∧ r' = f r ∨ id ≠ recordId ∧ r' = r) := by
    intro id r' hr'
    rw [hfind] at hr'
    split at hr'
    · next hid =>
      obtain ⟨r, hr, hfr⟩ := Option.map_eq_some_iff.mp hr'
      exact ⟨r, hr, .inl ⟨hid, hfr.symm⟩⟩
    · next hid => exact ⟨r', hr', .inr ⟨hid, rfl⟩⟩
  -- A record that becomes PAID counts nothing that another PAID record counts.
  have hapart : ∀ e ∈ past, ∀ e' ∈ past, e.1 = recordId → e'.1 ≠ recordId → status = .paid →
      ∀ r', s.find? .commissionRecord e'.1 = some r' → r'.status = .paid → ∀ id ∈ e.2, id ∉ e'.2 := by
    intro e he e' he' hid hid' hpaid r' hr' hrpaid id hmem hmem'
    obtain ⟨r, hr, hcounted⟩ := h.counted e he
    obtain ⟨r'', hr'', hcounted'⟩ := h.counted e' he'
    rw [hr'] at hr''
    obtain ⟨c, hc, hrc, -⟩ := hcounted id hmem
    obtain ⟨c', hc', hrc', -⟩ := hcounted' id hmem'
    rw [hc] at hc'
    rw [← Option.some.inj hc', ← Option.some.inj hr''] at hrc'
    have hshares := hsets r (hid ▸ hr)
    rw [if_pos hpaid] at hshares
    exact hshares (e'.1, r') (OrderedMap.get?_eq_some.mp hr') hid' hrpaid c
      (OrderedMap.mem_values.mpr ⟨id, hc⟩) ⟨hrc, hrc'⟩
  rw [hevents, List.append_nil]
  refine ⟨⟨?_, ?_⟩, ?_⟩
  · intro e he
    obtain ⟨r, hr, hcounted⟩ := h.counted e he
    have hfr := hfind e.1
    split at hfr
    · next hid =>
      refine ⟨f r, by rw [hfr, hr, Option.map_some], ?_⟩
      intro id hmem
      obtain ⟨c, hc, hrc, hcompleted⟩ := hcounted id hmem
      refine ⟨c, (hcollection id).trans hc, (hcovers r c).mpr hrc, ?_⟩
      intro hunpaid
      have hbefore := hsets r (hid ▸ hr)
      rw [(hf r).2] at hunpaid
      rw [if_neg hunpaid] at hbefore
      exact hcompleted hbefore
    · refine ⟨r, hfr.trans hr, ?_⟩
      intro id hmem
      obtain ⟨c, hc, hrest⟩ := hcounted id hmem
      exact ⟨c, (hcollection id).trans hc, hrest⟩
  · intro e he e' he' hne r hr r' hr' hpaid hpaid' hcollector id hmem
    obtain ⟨r₀, hr₀, hcase⟩ := hset hr
    obtain ⟨r₀', hr₀', hcase'⟩ := hset hr'
    rcases hcase with ⟨hid, hfr⟩ | ⟨hid, hsame⟩
    · rcases hcase' with ⟨hid', -⟩ | ⟨hid', hsame'⟩
      · exact absurd (hid.trans hid'.symm) hne
      · rw [hfr, (hf r₀).2] at hpaid
        exact hapart e he e' he' hid hid' hpaid r₀' hr₀' (hsame' ▸ hpaid') id hmem
    · rcases hcase' with ⟨hid', hfr'⟩ | ⟨-, hsame'⟩
      · rw [hfr', (hf r₀').2] at hpaid'
        intro hmem'
        exact hapart e' he' e he hid' hid hpaid' r₀ hr₀ (hsame ▸ hpaid) id hmem' hmem
      · rw [hsame, hsame'] at hcollector
        exact h.once e he e' he' hne r₀ hr₀ r₀' hr₀' (hsame ▸ hpaid) (hsame' ▸ hpaid') hcollector id
          hmem
  · intro e he r hr r' _ hunpaid _ id hmem c hc
    obtain ⟨r₀, hr₀, hcounted⟩ := h.counted e he
    obtain ⟨c₀, hc₀, -, hcompleted⟩ := hcounted id hmem
    rw [hr₀] at hr
    rw [hcollection, hc₀] at hc
    rw [← Option.some.inj hr] at hunpaid
    rw [← Option.some.inj hc, hcompleted hunpaid]
    simp

theorem Db.CommissionsSound.step (h : s.CommissionsSound past) (hstep : CommissionStep lab s t)
    (hlab : lab.KeepsCommissions s) :
    t.CommissionsSound (past ++ commissionEvents lab s t) ∧
      PaysCompleted (past ++ commissionEvents lab s t) s t := by
  obtain ⟨hmark, hcalculate, hset⟩ := hlab
  cases hstep with
  | keeps hcollections hrecords =>
    apply h.of_kept hrecords
    intro id c hc
    obtain ⟨c', hc', hfacts⟩ := hcollections.symm.find?_eq_some hc
    have hparts := hfacts
    simp only [CollectionTransaction.facts, Prod.mk.injEq] at hparts
    obtain ⟨hcollector, hstatus, hdate, -⟩ := hparts
    exact ⟨c', hc', hcollector, hdate, fun hcompleted _ => hstatus.trans hcompleted⟩
  | collects new hcollections hrecords =>
    apply h.of_kept hrecords
    intro id c hc
    refine ⟨c, ?_, rfl, rfl, fun hcompleted _ => hcompleted⟩
    rw [find?, hcollections]
    exact OrderedMap.get?_create_of_some hc new
  | marks id f hlab hf hcollections hrecords =>
    apply h.of_kept hrecords
    intro id' c hc
    by_cases hid : id' = id
    · refine ⟨f c, ?_, (hf c).1, (hf c).2, ?_⟩
      · rw [find?, hcollections, OrderedMap.get?_modify, if_pos hid]
        exact congrArg (Option.map f) hc
      · rintro hcompleted ⟨r, hr, hcovers, hunpaid⟩
        exact absurd (hmark id hlab c (hid ▸ hc) hcompleted r hr hcovers) hunpaid
    · refine ⟨c, ?_, rfl, rfl, fun hcompleted _ => hcompleted⟩
      rw [find?, hcollections, OrderedMap.get?_modify, if_neg hid]
      exact hc
  | calculates counted r hlab hpending hcollections hrecords =>
    exact h.calculate hpending hlab (hcalculate _ hlab) hcollections hrecords
  | sets id status f hlab hf hcollections hrecords =>
    exact h.setStatus hf (hset _ hlab) hcollections hrecords

end Steps

/-! ## The calls -/

namespace CommissionStep

variable {lab : Access} {s t : Db} {α : Type} {p : Handler α}

theorem of_agree (h : s.Agree [.collectionTransaction, .commissionRecord] t) :
    CommissionStep lab s t :=
  .keeps (.of_table_eq (h _ (by decide))) (h _ (by decide))

theorem refl (lab : Access) (s : Db) : CommissionStep lab s s := .of_agree (.refl s)

theorem of_quiet (hp : Quiet [.collectionTransaction, .commissionRecord] p) :
    p.EveryStep CommissionStep := .of_every (fun _ _ _ h => .of_agree h) hp

theorem of_collected (hp : Writes collectedWrites p) : p.EveryStep CommissionStep :=
  of_quiet (hp.quiet (by decide))

theorem recordCollection (auth : Auth) (now : DateTime) (body : RecordCollection) :
    (recordCollection auth now body).EveryStep CommissionStep := by
  apply recordCollection_everyStep of_collected
  intro s c _ _
  exact .collects c (Db.table_insert_self _ _ _) (Db.table_insert_of_ne (by decide) _ _)

theorem reverseCollection (auth : Auth) (now : DateTime) (id : Id) (reason : String) :
    (reverseCollection auth now id reason).EveryStep CommissionStep := by
  apply reverseCollection_everyStep of_collected refl
  intro s
  exact .marks id (CollectionTransaction.reverse auth now reason) rfl (fun _ => ⟨rfl, rfl⟩) (Db.table_modify_self _ _ _ _)
    (Db.table_modify_of_ne (by decide) _ _ _)

theorem calculateCommission (auth : Auth) (body : CalculateCommission) :
    (calculateCommission auth body).EveryStep CommissionStep := by
  refine (of_quiet (Quiet.query _)).bind fun found => ?_
  refine (Proc.EveryStep.orFail _ _).bind fun structure_ => ?_
  refine (of_quiet (Quiet.query _)).bind fun txns => ?_
  constructor
  · intro s
    exact .calculates _ _ rfl rfl (Db.table_insert_of_ne (by decide) _ _) (Db.table_insert_self _ _ _)
  · intro _
    trivial

theorem requestCommissionPayment (auth : Auth) (recordId : Id) :
    (requestCommissionPayment auth recordId).EveryStep CommissionStep := by
  refine (of_quiet (Quiet.query _)).bind fun found => ?_
  refine (Proc.EveryStep.orFail _ _).bind fun record => (Proc.EveryStep.require _ _).bind fun _ => ?_
  refine (of_quiet (Quiet.create (by decide) _)).bind fun _ => ?_
  refine Proc.EveryStep.bind ⟨fun s => ?_, fun _ => trivial⟩ fun _ => trivial
  dsimp only
  split
  · exact .sets recordId .pendingApproval (fun r => { r with status := .pendingApproval }) rfl
      (fun _ => ⟨rfl, rfl⟩) (Db.table_modify_of_ne (by decide) _ _ _) (Db.table_modify_self _ _ _ _)
  · exact refl _ s

/-- The decision about a payment. -/
theorem run_effect_commissionPayment {call : ResolveCall} {existing : ApprovalRequest}
    (htype : existing.type = .commissionPayment)
    (h : (call.effect existing).run s = (.ok (), t)) :
    ∃ f : CommissionRecord → CommissionRecord, t = s.modify .commissionRecord existing.targetId f ∧
      ∀ r, (f r).span = r.span ∧
        (f r).status = if call.decision = .approve then .paid else .pending := by
  unfold ResolveCall.effect at h
  cases hdecision : call.decision with
  | approve =>
    simp only [hdecision, applyApproval, htype] at h
    exact ⟨_, run_update_end_eq_ok h, fun r => ⟨rfl, rfl⟩⟩
  | reject =>
    simp only [hdecision, applyRejection, htype] at h
    exact ⟨_, run_update_end_eq_ok h, fun r => ⟨rfl, rfl⟩⟩

theorem resolve (call : ResolveCall) : call.handler.EveryStep CommissionStep := by
  apply call.everyStep refl
  intro existing s t hrun
  obtain ⟨request, v, hrequest, hpending, heffect, ht⟩ := ResolveCall.run_inTx_effect hrun
  have hafter : v.Agree [.collectionTransaction, .commissionRecord] t := by
    rw [ht]
    exact Db.Agree.insert (by decide) _ _
  by_cases htype : existing.type = .commissionPayment
  · obtain ⟨f, hv, hf⟩ := run_effect_commissionPayment htype heffect
    refine .sets existing.targetId (if call.decision = .approve then .paid else .pending) f ?_ hf ?_ ?_
    · unfold Access.setsCommission
      simp [htype, hrequest, hpending]
    · rw [hafter _ (by decide), hv, Db.table_modify_of_ne (by decide),
        Db.table_modify_of_ne (by decide)]
    · rw [hafter _ (by decide), hv, Db.table_modify_self, Db.table_modify_of_ne (by decide)]
  · have hwrites : ∀ m ∈ approvalWrites existing.type, m ∉ [Model.commissionRecord] := by
      revert htype
      cases existing.type <;> decide
    have hrecords := (call.quiet_effect hwrites).run
      (s.modify .approvalRequest call.requestId call.resolve)
    have hcollections := (call.effect_keepsSettledDays existing).run Db.KeepsSettledDays.refl
      Db.KeepsSettledDays.trans (s.modify .approvalRequest call.requestId call.resolve)
    rw [heffect] at hrecords hcollections
    apply keeps
    · have hclaim : Db.SameOn .collectionTransaction CollectionTransaction.facts s
          (s.modify .approvalRequest call.requestId call.resolve) :=
        .of_table_eq (Db.table_modify_of_ne (by decide) _ _ _)
      exact (hclaim.trans hcollections.1).trans (.of_table_eq (hafter _ (by decide)))
    · rw [hafter _ (by decide), hrecords _ (by decide), Db.table_modify_of_ne (by decide)]

end CommissionStep

/-- The calls of a run.  The last constructor stands for every other endpoint. -/
inductive CommissionCall
  | record (auth : Auth) (now : DateTime) (body : RecordCollection)
  | reverse (auth : Auth) (now : DateTime) (collectionId : Id) (reason : String)
  | calculate (auth : Auth) (body : CalculateCommission)
  | requestPayment (auth : Auth) (recordId : Id)
  | resolve (call : ResolveCall)
  | other (p : Handler Unit) (h : Quiet [.collectionTransaction, .commissionRecord] p)

def CommissionCall.handler : CommissionCall → Handler Unit
  | record auth now body => do let _ ← recordCollection auth now body
  | reverse auth now collectionId reason => do
    let _ ← reverseCollection auth now collectionId reason
  | calculate auth body => do let _ ← calculateCommission auth body
  | requestPayment auth recordId => requestCommissionPayment auth recordId
  | resolve call => call.handler
  | other p _ => p

theorem CommissionCall.everyStep (call : CommissionCall) :
    call.handler.EveryStep CommissionStep := by
  cases call with
  | record auth now body =>
    exact (CommissionStep.recordCollection auth now body).bind fun _ => trivial
  | reverse auth now collectionId reason =>
    exact (CommissionStep.reverseCollection auth now collectionId reason).bind fun _ => trivial
  | calculate auth body => exact (CommissionStep.calculateCommission auth body).bind fun _ => trivial
  | requestPayment auth recordId => exact CommissionStep.requestCommissionPayment auth recordId
  | resolve call => exact CommissionStep.resolve call
  | other p h => exact CommissionStep.of_quiet h

/-! ## Runs of the calls -/

section Runs

variable {ι : Type} [DecidableEq ι]

def commissionPool (calls : ι → CommissionCall) (s : Db) : Pool ι Access Db Failure Unit :=
  ⟨fun i => (calls i).handler, s⟩

theorem Db.PaysCompleted.refl (past : List CommissionCount) (s : Db) : PaysCompleted past s s := by
  intro e _ r hr r' hr' hunpaid hpaid
  rw [Option.mem_def] at hr hr'
  rw [hr] at hr'
  rw [Option.some.inj hr'] at hunpaid
  exact absurd hpaid hunpaid

/-- In a run whose statements keep to the condition no collection is counted in two PAID records
of a collector, and none that a record counts is REVERSED when the record becomes PAID. -/
theorem commission_paid_once (calls : ι → CommissionCall) (s : Db) {sched : List ι}
    (hallowed : (commissionPool calls s).AllowedAfter commissionEvents
      (fun _ => Access.KeepsCommissions) [] sched) :
    ((commissionPool calls s).run sched).state.PaidOnce
        ((commissionPool calls s).history commissionEvents sched) ∧
      ∀ before i, sched = before ++ [i] → Db.PaysCompleted
        ((commissionPool calls s).history commissionEvents sched)
        ((commissionPool calls s).run before).state ((commissionPool calls s).run sched).state := by
  have hcalls : ∀ i, ((commissionPool calls s).threads i).EveryStep CommissionStep :=
    fun i => (calls i).everyStep
  have hstep : ∀ (lab : Access) (t u : Db) (past : List CommissionCount), CommissionStep lab t u →
      lab.KeepsCommissions t → t.CommissionsSound past →
        u.CommissionsSound (past ++ commissionEvents lab t u) :=
    fun _ _ _ _ hstep hlab h => (h.step hstep hlab).1
  constructor
  · exact (Pool.run_history hstep hcalls (Db.commissionsSound_nil s) hallowed).once
  · rintro before i rfl
    rcases Pool.last_step_history hstep hcalls (Db.commissionsSound_nil s) hallowed with
      ⟨hsame, -⟩ | ⟨lab, hlast, hlab, hbefore, hhistory⟩
    · rw [hsame]
      exact .refl _ _
    · rw [List.nil_append, List.nil_append] at hhistory
      rw [hhistory]
      exact (hbefore.step hlast hlab).2

end Runs

/-- A collector with two collections, and a structure that pays 2 % of them. -/
def collectedLedger : Db :=
  let collection := fun collectedAt =>
    ({ institutionId := 1, type := .loanRepayment, collectorId := 1, customerId := 1, targetId := 1,
       amount := 5000, collectedAt, recordedById := 1 } : CollectionTransaction)
  ((Db.empty.insert .collectionTransaction (collection 3)).insert .collectionTransaction
    (collection 7)).insert .commissionStructure
      { institutionId := 1, name := "2 %", type := .percentageOfCollections, rate := 2 }

/-- The commission of two periods, and a reversal of the first collection. -/
def commissionCalls (firstEnd secondStart : DateTime) : Fin 7 → CommissionCall
  | 0 => .calculate ⟨1, 1⟩ ⟨1, 1, 0, firstEnd⟩
  | 1 => .calculate ⟨1, 1⟩ ⟨1, 1, secondStart, 10⟩
  | 2 => .requestPayment ⟨1, 1⟩ 1
  | 3 => .requestPayment ⟨1, 1⟩ 2
  | 4 => .resolve { decision := .approve, auth := ⟨1, 2⟩, now := 20, requestId := 1 }
  | 5 => .resolve { decision := .approve, auth := ⟨1, 2⟩, now := 20, requestId := 2 }
  | 6 => .reverse ⟨1, 1⟩ 15 1 "Entered twice"

/-- Both commissions are calculated, requested and paid, one call after the other. -/
def bothPaid : List (Fin 7) :=
  (List.finRange 7).flatMap fun i => List.replicate (![3, 3, 3, 3, 2, 2, 0] i) i

/-- Two periods that share nothing; the reversal comes after the payments. -/
theorem commission_paid_once_commissionCalls :
    let c := commissionPool (commissionCalls 4 5) collectedLedger
    c.history commissionEvents (bothPaid ++ [6, 6, 6]) = [(1, [1]), (2, [2])] ∧
      ((c.run (bothPaid ++ [6, 6, 6])).state.table .commissionRecord).values.map
        CommissionRecord.status = [.paid, .paid] ∧
      (c.run (bothPaid ++ [6, 6, 6])).state.PaidOnce
        (c.history commissionEvents (bothPaid ++ [6, 6, 6])) := by
  refine ⟨by decide +kernel, by decide +kernel, ?_⟩
  exact (commission_paid_once (commissionCalls 4 5) collectedLedger (by decide +kernel)).1

/-- With one period for both records each collection is paid for twice, and a reversal between
the calculation and the payment goes unnoticed. -/
theorem commission_paid_twice :
    (let c := commissionPool (commissionCalls 10 0) collectedLedger
     ¬ (c.run bothPaid).state.PaidOnce (c.history commissionEvents bothPaid)) ∧
      (let c := commissionPool (commissionCalls 4 5) collectedLedger
       ¬ Db.PaysCompleted (c.history commissionEvents ([0, 0, 0, 6, 6, 6, 2, 2, 2, 4] ++ [4]))
         (c.run [0, 0, 0, 6, 6, 6, 2, 2, 2, 4]).state
         (c.run ([0, 0, 0, 6, 6, 6, 2, 2, 2, 4] ++ [4])).state) :=
  ⟨by decide +kernel, by decide +kernel⟩

end NexusEfos
