/-
The settlement of a collector's day: `POST /settlements` of `routes/collections.routes.ts`.

A settlement stores what the collector should hand over: the collections of the day that are
COMPLETED when it is made.  There is one for each collector and day, and nothing keeps
collections from being recorded or reversed afterwards.  So the amount is that of the day as
long as no collection comes or goes once its day is settled.
-/
import NexusEfos.Approvals.ExactlyOnce
import NexusEfos.Library.History
import NexusEfos.Savings.GuardedPaths
import NexusEfos.Savings.Writes
import NexusEfos.Schema.LiveRows

namespace NexusEfos

open Proc

/-! ## The endpoint -/

/-- `settleSchema`. -/
structure SettleCollections where
  collectorId : Id
  settlementDate : DateTime
  actualAmount : ℚ
  notes : Option String := none

/-- `collectionSettlement.create`.  A collector has one settlement for each day. -/
def createSettlement (counted : List (Id × Cents)) (row : CollectionSettlement) : Handler Id :=
  Proc.attempt { settles := some ⟨row.collectorId, row.settlementDate, counted⟩ } fun s =>
    if (row.collectorId, row.settlementDate) ∈ (s.table .collectionSettlement).values.map
        fun x => (x.collectorId, x.settlementDate) then
      (.error uniqueViolation, s)
    else (.ok (s.nextId .collectionSettlement), s.insert .collectionSettlement row)

/-- `POST /settlements`. -/
def recordSettlement (auth : Auth) (now : DateTime) (body : SettleCollections) : Handler Id := do
  Proc.require (0 ≤ body.actualAmount) .invalid
  let dayStart := startOfDay body.settlementDate
  let dayEnd := addDays dayStart 1
  let existing ← findFirst .collectionSettlement fun _ x =>
    x.collectorId = body.collectorId ∧ x.settlementDate = dayStart
  Proc.require (existing.isNone = true)
    (.http 400 "This collector already has a settlement for this date")
  let txns ← findMany .collectionTransaction fun _ c =>
    c.collectorId = body.collectorId ∧ c.status = .completed ∧ dayStart ≤ c.collectedAt ∧
      c.collectedAt < dayEnd
  let expectedAmount := (txns.map fun c => toNumber c.2.amount).sum
  let variance := round2 (body.actualAmount - expectedAmount)
  let settlement ← createSettlement (txns.map fun c => (c.1, c.2.amount))
    { institutionId := auth.institutionId, collectorId := body.collectorId,
      settlementDate := dayStart, expectedAmount := ofNumber expectedAmount,
      actualAmount := ofNumber body.actualAmount, variance := ofNumber variance,
      notes := body.notes,
      status := if |variance| < 1 / 100 then .reconciled else .variancePendingApproval,
      reconciledById := if |variance| < 1 / 100 then some auth.userId else none,
      reconciledAt := if |variance| < 1 / 100 then some now else none }
  if 1 / 100 ≤ |variance| then
    let _ ← create .approvalRequest
      { institutionId := auth.institutionId, type := .collectionVarianceAdjustment,
        targetType := "CollectionSettlement", targetId := settlement,
        requestedById := auth.userId }
  let _ ← create .auditLog
    { institutionId := auth.institutionId, userId := some auth.userId,
      action := "collection.settlement_recorded", resource := "collection_settlement",
      resourceId := some settlement }
  return settlement

/-! ## What is to hold -/

/-- The collection counts for the collector's day that starts at `dayStart`. -/
def CollectionTransaction.CompletedOn (c : CollectionTransaction) (collectorId : Id)
    (dayStart : DateTime) : Prop :=
  c.collectorId = collectorId ∧ c.status = .completed ∧ dayStart ≤ c.collectedAt ∧
    c.collectedAt < addDays dayStart 1

instance (c : CollectionTransaction) (collectorId : Id) (dayStart : DateTime) :
    Decidable (c.CompletedOn collectorId dayStart) :=
  inferInstanceAs (Decidable (_ ∧ _))

/-- What a collection records, apart from whose money it is. -/
def CollectionTransaction.facts (c : CollectionTransaction) :
    Id × CollectionTransactionStatus × DateTime × Cents :=
  (c.collectorId, c.status, c.collectedAt, c.amount)

/-- What a settlement records. -/
def CollectionSettlement.facts (x : CollectionSettlement) : (Id × DateTime) × Cents :=
  ((x.collectorId, x.settlementDate), x.expectedAmount)

namespace Db

variable {s t : Db}

/-- The sum of the collector's COMPLETED collections of a day. -/
def collectedOn (s : Db) (collectorId : Id) (dayStart : DateTime) : Cents :=
  (s.table .collectionTransaction).total fun _ c =>
    if c.CompletedOn collectorId dayStart then c.amount else 0

/-- The sum of the collector's COMPLETED collections of some days. -/
def collectedOver (s : Db) (collectorId : Id) (days : Finset DateTime) : Cents :=
  (s.table .collectionTransaction).total fun _ c =>
    if c.collectorId = collectorId ∧ c.status = .completed ∧ startOfDay c.collectedAt ∈ days then
      c.amount
    else 0

/-- The sum of what the collector's settlements of some days expect. -/
def expectedOver (s : Db) (collectorId : Id) (days : Finset DateTime) : Cents :=
  (s.table .collectionSettlement).total fun _ x =>
    if x.collectorId = collectorId ∧ x.settlementDate ∈ days then x.expectedAmount else 0

/-- The collector has a settlement for the day. -/
def DaySettled (s : Db) (collectorId : Id) (dayStart : DateTime) : Prop :=
  ∃ x ∈ (s.table .collectionSettlement).values,
    x.collectorId = collectorId ∧ x.settlementDate = dayStart

instance (s : Db) (collectorId : Id) (dayStart : DateTime) :
    Decidable (s.DaySettled collectorId dayStart) :=
  inferInstanceAs (Decidable (∃ x ∈ (s.table .collectionSettlement).values, _))

/-- Every settlement is the only one of its collector and day, and expects what was collected. -/
structure SettledRight (s : Db) : Prop where
  once : s.AtMostOne .collectionSettlement (fun _ => true) fun x => (x.collectorId, x.settlementDate)
  midnight : ∀ id x, s.find? .collectionSettlement id = some x →
    startOfDay x.settlementDate = x.settlementDate
  expected : ∀ id x, s.find? .collectionSettlement id = some x →
    x.expectedAmount = s.collectedOn x.collectorId x.settlementDate

/-- The amounts of settled days add up. -/
def SumsUp (s : Db) : Prop :=
  ∀ collectorId (days : Finset DateTime), (∀ d ∈ days, s.DaySettled collectorId d) →
    s.expectedOver collectorId days = s.collectedOver collectorId days

end Db

/-! ## Days -/

theorem startOfDay_le (t : DateTime) : startOfDay t ≤ t := by
  have hpos : (0 : ℤ) < msPerDay := by decide
  have hmod := Int.emod_nonneg t (ne_of_gt hpos)
  unfold startOfDay
  exact sub_le_self t hmod

theorem lt_startOfDay_add (t : DateTime) : t < addDays (startOfDay t) 1 := by
  have hpos : (0 : ℤ) < msPerDay := by decide
  have hmod := Int.emod_lt_of_pos t hpos
  unfold addDays startOfDay
  linarith

theorem sub_emod_eq_of_mem_day {d t : ℤ} (hd : d - d % msPerDay = d) (hle : d ≤ t)
    (hlt : t < d + 1 * msPerDay) : t - t % msPerDay = d := by
  unfold msPerDay at *
  omega

/-- A moment lies in the day that starts at midnight `d` exactly if its day starts there. -/
theorem startOfDay_eq_iff {d t : DateTime} (hd : startOfDay d = d) :
    startOfDay t = d ↔ d ≤ t ∧ t < addDays d 1 := by
  constructor
  · rintro rfl
    exact ⟨startOfDay_le t, lt_startOfDay_add t⟩
  · rintro ⟨hle, hlt⟩
    exact sub_emod_eq_of_mem_day hd hle hlt

theorem startOfDay_startOfDay (t : DateTime) : startOfDay (startOfDay t) = startOfDay t := by
  have hmod : ∀ x : ℤ, x - x % msPerDay - (x - x % msPerDay) % msPerDay = x - x % msPerDay := by
    intro x
    unfold msPerDay
    omega
  exact hmod t

namespace Db

variable {s t : Db}

/-- A collection counts for the settled day on which it was made, and for no other. -/
theorem collectedOn_eq {d : DateTime} (hd : startOfDay d = d) (collectorId : Id) :
    s.collectedOn collectorId d = s.collectedOver collectorId {d} := by
  apply OrderedMap.total_congr
  intro id c _
  have hiff : c.CompletedOn collectorId d ↔ c.collectorId = collectorId ∧ c.status = .completed ∧
      startOfDay c.collectedAt ∈ ({d} : Finset DateTime) := by
    rw [Finset.mem_singleton, startOfDay_eq_iff hd]
    rfl
  simp only [hiff]

/-- Sums over days are sums of the days. -/
theorem collectedOver_eq_sum (collectorId : Id) (days : Finset DateTime) :
    s.collectedOver collectorId days = ∑ d ∈ days, s.collectedOver collectorId {d} := by
  unfold collectedOver
  rw [← OrderedMap.total_sum]
  apply OrderedMap.total_congr
  intro id c _
  by_cases h : c.collectorId = collectorId ∧ c.status = .completed
  · simp [h]
  · have hnot : ∀ p : Prop, ¬ (c.collectorId = collectorId ∧ c.status = .completed ∧ p) :=
      fun p hp => h ⟨hp.1, hp.2.1⟩
    simp [hnot]

theorem expectedOver_eq_sum (collectorId : Id) (days : Finset DateTime) :
    s.expectedOver collectorId days = ∑ d ∈ days, s.expectedOver collectorId {d} := by
  unfold expectedOver
  rw [← OrderedMap.total_sum]
  apply OrderedMap.total_congr
  intro id x _
  by_cases h : x.collectorId = collectorId
  · simp [h]
  · simp [h]

/-- The one settlement of a day. -/
theorem expectedOver_singleton
    (hs : s.AtMostOne .collectionSettlement (fun _ => true) fun x => (x.collectorId, x.settlementDate))
    {id : Id} {x : CollectionSettlement} (hx : s.find? .collectionSettlement id = some x) :
    s.expectedOver x.collectorId {x.settlementDate} = x.expectedAmount := by
  have hsingle := OrderedMap.total_single CollectionSettlement.expectedAmount
    (s.table .collectionSettlement) id
  rw [show (s.table .collectionSettlement).get? id = some x from hx, Option.elim_some] at hsingle
  rw [← hsingle]
  apply OrderedMap.total_congr
  intro id' x' hx'
  have hfound : s.find? .collectionSettlement id' = some x' := OrderedMap.get?_eq_some.mpr hx'
  by_cases hid : id' = id
  · rw [hid, hx] at hfound
    rw [if_pos hid, if_pos]
    rw [Option.some.inj hfound]
    exact ⟨rfl, Finset.mem_singleton_self _⟩
  · rw [if_neg hid, if_neg]
    rintro ⟨hcollector, hdate⟩
    apply hid
    exact hs id' x' id x hfound hx rfl rfl (Prod.ext hcollector (Finset.mem_singleton.mp hdate))

theorem SettledRight.sumsUp (h : s.SettledRight) : s.SumsUp := by
  intro collectorId days hdays
  rw [expectedOver_eq_sum, collectedOver_eq_sum]
  apply Finset.sum_congr rfl
  intro d hd
  obtain ⟨x, hx, rfl, rfl⟩ := hdays d hd
  obtain ⟨id, hid⟩ := OrderedMap.mem_values.mp hx
  rw [expectedOver_singleton h.once hid, h.expected id x hid, collectedOn_eq (h.midnight id x hid)]

end Db

/-! ## Statements -/

/-- The collection that a statement marks as reversed. -/
def Access.marks (lab : Access) : Option Id :=
  match lab.collection with
  | some (.mark id) => some id
  | _ => none

/-- What a statement of the calls does to collections and settlements. -/
inductive SettlementStep (lab : Access) (s t : Db) : Prop
  | keeps (hcollections : Db.SameOn .collectionTransaction CollectionTransaction.facts s t)
      (hsettlements : Db.SameOn .collectionSettlement CollectionSettlement.facts s t)
  | collects (c : CollectionTransaction) (hlab : lab.collects = some (c.collectorId, c.collectedAt))
      (hcollections : t.table .collectionTransaction =
        (s.table .collectionTransaction).create c)
      (hsettlements : t.table .collectionSettlement = s.table .collectionSettlement)
  | marks (id : Id) (f : CollectionTransaction → CollectionTransaction) (hlab : lab.marks = some id)
      (hf : ∀ c, (f c).status = .reversed)
      (hcollections : t.table .collectionTransaction = (s.table .collectionTransaction).modify id f)
      (hsettlements : t.table .collectionSettlement = s.table .collectionSettlement)
  | settles (counted : List (Id × Cents)) (x : CollectionSettlement)
      (hlab : lab.settles = some ⟨x.collectorId, x.settlementDate, counted⟩)
      (hmidnight : startOfDay x.settlementDate = x.settlementDate)
      (hexpected : x.expectedAmount = (counted.map Prod.snd).sum)
      (hfree : ¬ s.DaySettled x.collectorId x.settlementDate)
      (hcollections : t.table .collectionTransaction = s.table .collectionTransaction)
      (hsettlements : t.table .collectionSettlement = (s.table .collectionSettlement).create x)

/-- The collector's COMPLETED collections of a day, with their amounts. -/
def Db.completedOn (s : Db) (collectorId : Id) (dayStart : DateTime) : List (Id × Cents) :=
  ((s.table .collectionTransaction).entries.filter fun c =>
    c.2.CompletedOn collectorId dayStart).map fun c => (c.1, c.2.amount)

/-- A collection is recorded only if its day is not settled, a COMPLETED one is reversed only if
its day is not settled, and a settlement is stored only if the collections that it counted are
still those of the day. -/
def Access.KeepsSettledDays (lab : Access) (s : Db) : Prop :=
  (∀ x ∈ lab.collects, ¬ s.DaySettled x.1 (startOfDay x.2)) ∧
    (∀ id ∈ lab.marks, ∀ c ∈ s.find? .collectionTransaction id, c.status = .completed →
      ¬ s.DaySettled c.collectorId (startOfDay c.collectedAt)) ∧
    ∀ x ∈ lab.settles, s.completedOn x.collectorId x.settlementDate = x.counted

instance (lab : Access) (s : Db) : Decidable (lab.KeepsSettledDays s) :=
  inferInstanceAs (Decidable (_ ∧ _ ∧ _))

section Steps

variable {lab : Access} {s t : Db}

theorem settled_of_find? {id : Id} {x : CollectionSettlement}
    (hx : s.find? .collectionSettlement id = some x) : s.DaySettled x.collectorId x.settlementDate :=
  ⟨x, OrderedMap.mem_values.mpr ⟨id, hx⟩, rfl, rfl⟩

theorem sum_completedOn (s : Db) (collectorId : Id) (dayStart : DateTime) :
    ((s.completedOn collectorId dayStart).map Prod.snd).sum = s.collectedOn collectorId dayStart := by
  unfold Db.completedOn Db.collectedOn OrderedMap.total
  rw [List.map_map, OrderedMap.sum_map_filter]
  simp only [decide_eq_true_eq]
  rfl

/-- A collection of a day that is not settled counts for no settlement. -/
theorem not_completedOn_of_settled {c : CollectionTransaction} {collectorId : Id}
    {dayStart : DateTime} (hmidnight : startOfDay dayStart = dayStart)
    (hsettled : s.DaySettled collectorId dayStart)
    (hfree : c.status = .completed → ¬ s.DaySettled c.collectorId (startOfDay c.collectedAt)) :
    ¬ c.CompletedOn collectorId dayStart := by
  rintro ⟨hcollector, hcompleted, hday⟩
  apply hfree hcompleted
  rw [hcollector, (startOfDay_eq_iff hmidnight).mpr hday]
  exact hsettled

/-- The settlements stay, and so do the sums of their days. -/
theorem Db.SettledRight.of_kept (h : s.SettledRight)
    (hsettlements : Db.SameOn .collectionSettlement CollectionSettlement.facts s t)
    (hsums : ∀ id x, s.find? .collectionSettlement id = some x →
      t.collectedOn x.collectorId x.settlementDate = s.collectedOn x.collectorId x.settlementDate) :
    t.SettledRight where
  once := (hsettlements.map Prod.fst).atMostOne h.once
  midnight := by
    intro id x hx
    obtain ⟨x₀, hx₀, hfacts⟩ := hsettlements.find?_eq_some hx
    have hdate : x₀.settlementDate = x.settlementDate := (Prod.mk.inj (Prod.mk.inj hfacts).1).2
    rw [← hdate]
    exact h.midnight id x₀ hx₀
  expected := by
    intro id x hx
    obtain ⟨x₀, hx₀, hfacts⟩ := hsettlements.find?_eq_some hx
    obtain ⟨hkey, hexpected⟩ := Prod.mk.inj hfacts
    obtain ⟨hcollector, hdate⟩ := Prod.mk.inj hkey
    rw [← hexpected, ← hcollector, ← hdate, hsums id x₀ hx₀]
    exact h.expected id x₀ hx₀

theorem Db.SettledRight.step (h : s.SettledRight) (hstep : SettlementStep lab s t)
    (hlab : lab.KeepsSettledDays s) : t.SettledRight := by
  obtain ⟨hcollect, hmark, hsettle⟩ := hlab
  cases hstep with
  | keeps hcollections hsettlements =>
    apply h.of_kept hsettlements
    intro id x _
    exact hcollections.total fun c => if c.1 = x.collectorId ∧ c.2.1 = .completed ∧
      x.settlementDate ≤ c.2.2.1 ∧ c.2.2.1 < addDays x.settlementDate 1 then c.2.2.2 else 0
  | collects c hlab hcollections hsettlements =>
    apply h.of_kept (.of_table_eq hsettlements)
    intro id x hx
    have hnot := not_completedOn_of_settled (h.midnight id x hx) (settled_of_find? hx)
      fun _ => hcollect _ hlab
    unfold Db.collectedOn
    rw [hcollections, OrderedMap.total_create, if_neg hnot, add_zero]
  | marks id f hlab hf hcollections hsettlements =>
    apply h.of_kept (.of_table_eq hsettlements)
    intro id' x hx
    unfold Db.collectedOn
    rw [hcollections, OrderedMap.total_modify]
    cases hc : (s.table .collectionTransaction).get? id with
    | none => exact add_zero _
    | some c =>
      have hnot := not_completedOn_of_settled (h.midnight id' x hx) (settled_of_find? hx)
        (hmark id hlab c hc)
      have hreversed : ¬ (f c).CompletedOn x.collectorId x.settlementDate := by
        rintro ⟨-, hcompleted, -⟩
        rw [hf] at hcompleted
        exact absurd hcompleted nofun
      rw [Option.elim_some, if_neg hreversed, if_neg hnot, sub_zero, add_zero]
  | settles counted x hlab hmidnight hexpected hfree hcollections hsettlements =>
    have hinsert : t.table .collectionSettlement = (s.insert .collectionSettlement x).table
        .collectionSettlement := by
      rw [hsettlements, Db.table_insert_self]
    have hfind : ∀ id y, t.find? .collectionSettlement id = some y →
        y = x ∨ s.find? .collectionSettlement id = some y := by
      intro id y hy
      rw [Db.find?, hinsert, ← Db.find?, Db.find?_insert] at hy
      split at hy
      · exact .inl (Option.some.inj hy).symm
      · exact .inr hy
    have hsums : ∀ collectorId d, t.collectedOn collectorId d = s.collectedOn collectorId d := by
      intro collectorId d
      unfold Db.collectedOn
      rw [hcollections]
    constructor
    · have hnew : ∀ id y, s.find? .collectionSettlement id = some y →
          (y.collectorId, y.settlementDate) ≠ (x.collectorId, x.settlementDate) := by
        intro id y hy hkey
        apply hfree
        rw [← (Prod.mk.inj hkey).1, ← (Prod.mk.inj hkey).2]
        exact settled_of_find? hy
      exact (h.once.insert fun _ id y hy _ => hnew id y hy).of_table_eq hinsert
    · intro id y hy
      rcases hfind id y hy with rfl | hbefore
      · exact hmidnight
      · exact h.midnight id y hbefore
    · intro id y hy
      rw [hsums]
      rcases hfind id y hy with rfl | hbefore
      · have hcounted : s.completedOn y.collectorId y.settlementDate = counted := hsettle _ hlab
        rw [hexpected, ← hcounted, sum_completedOn]
      · exact h.expected id y hbefore

end Steps

/-! ## The calls -/

namespace SettlementStep

variable {lab : Access} {s t : Db} {α : Type} {p : Handler α}

theorem of_agree (h : s.Agree [.collectionTransaction, .collectionSettlement] t) :
    SettlementStep lab s t :=
  .keeps (.of_table_eq (h _ (by decide))) (.of_table_eq (h _ (by decide)))

theorem refl (lab : Access) (s : Db) : SettlementStep lab s s := .of_agree (.refl s)

theorem of_quiet (hp : Quiet [.collectionTransaction, .collectionSettlement] p) :
    p.EveryStep SettlementStep := .of_every (fun _ _ _ h => .of_agree h) hp

theorem of_writes {ms : List Model}
    (hms : ∀ m ∈ ms, m ∉ [Model.collectionTransaction, Model.collectionSettlement])
    (hp : Writes ms p) : p.EveryStep SettlementStep := of_quiet (hp.quiet hms)

theorem recordCollection (auth : Auth) (now : DateTime) (body : RecordCollection) :
    (recordCollection auth now body).EveryStep SettlementStep := by
  apply recordCollection_everyStep
  · exact fun hp => of_writes (by decide) hp
  · intro s c hcollector hdate
    refine .collects c ?_ (Db.table_insert_self _ _ _) (Db.table_insert_of_ne (by decide) _ _)
    rw [hcollector, hdate]

theorem reverseCollection (auth : Auth) (now : DateTime) (id : Id) (reason : String) :
    (reverseCollection auth now id reason).EveryStep SettlementStep := by
  apply reverseCollection_everyStep
  · exact fun hp => of_writes (by decide) hp
  · exact refl
  · intro s
    exact .marks id _ rfl (fun _ => rfl) (Db.table_modify_self _ _ _ _)
      (Db.table_modify_of_ne (by decide) _ _ _)

theorem sum_toNumber_amounts (txns : List (Id × CollectionTransaction)) :
    ofNumber (txns.map fun c => toNumber c.2.amount).sum =
      ((txns.map fun c => (c.1, c.2.amount)).map Prod.snd).sum := by
  have hsum := toNumber_sum ((txns.map fun c => (c.1, c.2.amount)).map Prod.snd)
  rw [List.map_map, List.map_map] at hsum
  rw [List.map_map, ← ofNumber_toNumber (List.sum _), hsum]
  rfl

theorem createSettlement {counted : List (Id × Cents)} {x : CollectionSettlement}
    (hmidnight : startOfDay x.settlementDate = x.settlementDate)
    (hexpected : x.expectedAmount = (counted.map Prod.snd).sum) :
    (createSettlement counted x).EveryStep SettlementStep := by
  refine ⟨fun s => ?_, fun _ => trivial⟩
  dsimp only
  split
  · exact refl _ s
  · next hnew =>
    refine .settles counted x rfl hmidnight hexpected ?_ (Db.table_insert_of_ne (by decide) _ _)
      (Db.table_insert_self _ _ _)
    rintro ⟨y, hy, hcollector, hdate⟩
    apply hnew
    rw [← hcollector, ← hdate]
    exact List.mem_map_of_mem hy

theorem recordSettlement (auth : Auth) (now : DateTime) (body : SettleCollections) :
    (recordSettlement auth now body).EveryStep SettlementStep := by
  refine (Proc.EveryStep.require _ _).bind fun _ => ?_
  refine (of_quiet (Quiet.query _)).bind fun existing => ?_
  refine (Proc.EveryStep.require _ _).bind fun _ => (of_quiet (Quiet.query _)).bind fun txns => ?_
  refine (createSettlement ?_ ?_).bind fun settlement => ?_
  · exact startOfDay_startOfDay _
  · exact sum_toNumber_amounts txns
  · dsimp only
    split
    · refine of_quiet ((Quiet.create (by decide) _).bind fun _ => ?_)
      exact (Quiet.create (by decide) _).bind fun _ => Quiet.pure _
    · exact of_quiet ((Quiet.create (by decide) _).bind fun _ => Quiet.pure _)

end SettlementStep

/-- What leaves collections and settlements alone, as far as settling goes. -/
def Db.KeepsSettledDays (s t : Db) : Prop :=
  SameOn .collectionTransaction CollectionTransaction.facts s t ∧
    SameOn .collectionSettlement CollectionSettlement.facts s t

namespace Db.KeepsSettledDays

variable {s t u : Db}

theorem of_agree (h : s.Agree [.collectionTransaction, .collectionSettlement] t) :
    s.KeepsSettledDays t :=
  ⟨.of_table_eq (h _ (by decide)), .of_table_eq (h _ (by decide))⟩

theorem trans (h : s.KeepsSettledDays t) (h' : t.KeepsSettledDays u) : s.KeepsSettledDays u :=
  ⟨h.1.trans h'.1, h.2.trans h'.2⟩

theorem refl (s : Db) : s.KeepsSettledDays s := .of_agree (.refl s)

end Db.KeepsSettledDays

theorem Quiet.keepsSettledDays {α : Type} {p : Handler α}
    (hp : Quiet [.collectionTransaction, .collectionSettlement] p) : p.Every Db.KeepsSettledDays :=
  Proc.Every.imp hp fun _ _ h => .of_agree h

/-- A merge gives the collections of a customer to another one. -/
theorem mergeCustomers_keepsSettledDays (now : DateTime) (approvedById targetId : Id) :
    (mergeCustomers now approvedById targetId).Every Db.KeepsSettledDays := by
  have hwatched : ∀ m ∈ approvalWrites .customerMerge, m ∉ mergedModels →
      m ∉ [Model.collectionTransaction, .collectionSettlement] := by decide
  apply mergeCustomers_every_of_reassign hwatched
  · exact fun s s' h => .of_agree h
  · intro p q
    exact (Quiet.reassign (by decide) _ _ p q).keepsSettledDays
  · intro p q
    exact (Quiet.reassign (by decide) _ _ p q).keepsSettledDays
  · intro p q
    apply reassign_every Db.KeepsSettledDays.refl
    intro s
    constructor
    · apply Db.SameOn.of_updateAll _ (Db.table_modifyAll_self s _ _)
      intro id c
      split
      · rfl
      · rfl
    · exact .of_table_eq (Db.table_modifyAll_of_ne (by decide) s _)

/-- The approval of a variance changes the status of a settlement and nothing that it records. -/
theorem ResolveCall.effect_keepsSettledDays (call : ResolveCall) (existing : ApprovalRequest) :
    (call.effect existing).Every Db.KeepsSettledDays := by
  cases hdecision : call.decision with
  | reject =>
    unfold effect
    rw [hdecision]
    exact (Quiet.rejection (by decide) existing).keepsSettledDays
  | approve =>
    by_cases hwrites : ∀ m ∈ approvalWrites existing.type,
        m ∉ [Model.collectionTransaction, .collectionSettlement]
    · exact (call.quiet_effect hwrites).keepsSettledDays
    · have htype : existing.type = .customerMerge ∨
          existing.type = .collectionVarianceAdjustment := by
        revert hwrites
        cases existing.type <;> decide
      unfold effect applyApproval
      rw [hdecision]
      rcases htype with htype | htype
      · simp only [htype]
        exact mergeCustomers_keepsSettledDays call.now call.auth.userId existing.targetId
      · simp only [htype]
        refine Proc.Every.bind ⟨fun s => ?_, fun _ => trivial⟩ fun _ => trivial
        dsimp only
        split
        · exact ⟨.of_table_eq (Db.table_modify_of_ne (by decide) _ _ _), .modify _ _ fun _ => rfl⟩
        · exact .refl s

theorem SettlementStep.resolve (call : ResolveCall) : call.handler.EveryStep SettlementStep := by
  apply call.everyStep refl
  intro existing s t hrun
  obtain ⟨request, v, -, -, heffect, ht⟩ := ResolveCall.run_inTx_effect hrun
  have hclaim : s.KeepsSettledDays (s.modify .approvalRequest call.requestId call.resolve) :=
    .of_agree (Db.Agree.modify (by decide) _ _ _)
  have hkept := (call.effect_keepsSettledDays existing).run Db.KeepsSettledDays.refl
    Db.KeepsSettledDays.trans (s.modify .approvalRequest call.requestId call.resolve)
  have hlog : v.KeepsSettledDays t := by
    rw [ht]
    exact .of_agree (Db.Agree.insert (by decide) _ _)
  rw [heffect] at hkept
  obtain ⟨hcollections, hsettlements⟩ := (hclaim.trans hkept).trans hlog
  exact .keeps hcollections hsettlements

/-- The calls of a run.  The last constructor stands for every other endpoint. -/
inductive CollectorCall
  | record (auth : Auth) (now : DateTime) (body : RecordCollection)
  | reverse (auth : Auth) (now : DateTime) (collectionId : Id) (reason : String)
  | settle (auth : Auth) (now : DateTime) (body : SettleCollections)
  | resolve (call : ResolveCall)
  | other (p : Handler Unit) (h : p.Every Db.KeepsSettledDays)

def CollectorCall.handler : CollectorCall → Handler Unit
  | record auth now body => do let _ ← recordCollection auth now body
  | reverse auth now collectionId reason => do
    let _ ← reverseCollection auth now collectionId reason
  | settle auth now body => do let _ ← recordSettlement auth now body
  | resolve call => call.handler
  | other p _ => p

theorem CollectorCall.everyStep (call : CollectorCall) :
    call.handler.EveryStep SettlementStep := by
  cases call with
  | record auth now body =>
    exact (SettlementStep.recordCollection auth now body).bind fun _ => trivial
  | reverse auth now collectionId reason =>
    exact (SettlementStep.reverseCollection auth now collectionId reason).bind fun _ => trivial
  | settle auth now body =>
    exact (SettlementStep.recordSettlement auth now body).bind fun _ => trivial
  | resolve call => exact SettlementStep.resolve call
  | other p h => exact .of_every (fun _ _ _ hkept => .keeps hkept.1 hkept.2) h

/-! ## Runs of the calls -/

section Runs

variable {ι : Type} [DecidableEq ι]

def collectorPool (calls : ι → CollectorCall) (s : Db) : Pool ι Access Db Failure Unit :=
  ⟨fun i => (calls i).handler, s⟩

/-- In every state of a run that touches no settled day, a collector has one settlement for a
day, it expects what the collector's COMPLETED collections of the day come to, and over any
settled days the two sums are the same. -/
theorem every_collection_settled (calls : ι → CollectorCall) (s : Db) (hs : s.SettledRight)
    {sched : List ι} (hallowed : (collectorPool calls s).Allowed Access.KeepsSettledDays sched) :
    ((collectorPool calls s).run sched).state.SettledRight ∧
      ((collectorPool calls s).run sched).state.SumsUp := by
  have hcalls : ∀ i, ((collectorPool calls s).threads i).EveryStep SettlementStep :=
    fun i => (calls i).everyStep
  have hstep : ∀ (lab : Access) (t u : Db), SettlementStep lab t u → lab.KeepsSettledDays t →
      t.SettledRight → u.SettledRight := fun _ _ _ hstep hlab h => h.step hstep hlab
  have hright := Pool.run_rel (fun _ h => h) (fun h h' hs => h' (h hs)) hstep hcalls hallowed hs
  exact ⟨hright, hright.sumsUp⟩

end Runs

/-- A settlement that is made with nothing else in between counts the collections of the day. -/
theorem recordSettlement_meets (auth : Auth) (now : DateTime) (body : SettleCollections) (s : Db) :
    (recordSettlement auth now body).Meets (fun lab s =>
      ∀ x ∈ lab.settles, s.completedOn x.collectorId x.settlementDate = x.counted) s := by
  refine Meets.require fun _ => ⟨nofun, ?_⟩
  refine Meets.require fun _ => ⟨nofun, Meets.bind (p := createSettlement _ _) ?_ ?_⟩
  · refine ⟨fun x hx => ?_, trivial⟩
    rw [← Option.some.inj hx]
    rfl
  · intro settlement t _
    dsimp only
    split
    · exact ⟨nofun, nofun, trivial⟩
    · exact ⟨nofun, trivial⟩

/-! ## Two collections of a day -/

/-- A collection of 5.00, the settlement of its day, and another collection of the day. -/
def collectorDay : Fin 3 → CollectorCall
  | 0 => .record ⟨1, 1⟩ 5 ⟨.savingsDeposit, 1, 1, 1, 5⟩
  | 1 => .settle ⟨1, 1⟩ 7 { collectorId := 1, settlementDate := 7, actualAmount := 5 }
  | 2 => .record ⟨1, 1⟩ 9 ⟨.savingsDeposit, 1, 1, 1, 8⟩

theorem tellerLedger_settledRight : tellerLedger.SettledRight where
  once := fun _ _ _ _ hx => absurd hx nofun
  midnight := fun _ _ hx => absurd hx nofun
  expected := fun _ _ hx => absurd hx nofun

/-- Both collections come before the settlement. -/
theorem every_collection_settled_collectorDay :
    let s := ((collectorPool collectorDay tellerLedger).run
      (List.replicate 12 0 ++ List.replicate 12 2 ++ List.replicate 6 1)).state
    s.expectedOver 1 {0} = 1300 ∧ s.SettledRight ∧ s.SumsUp :=
  ⟨by decide +kernel, every_collection_settled collectorDay tellerLedger tellerLedger_settledRight
    (by decide +kernel)⟩

/-- One comes after it. -/
theorem late_collection_unsettled :
    ¬ ((collectorPool collectorDay tellerLedger).run
      (List.replicate 12 0 ++ List.replicate 6 1 ++ List.replicate 12 2)).state.SumsUp := by
  intro hsums
  exact absurd (hsums 1 {0} (by decide +kernel)) (by decide +kernel)

end NexusEfos
