/-
The level of due diligence of a customer, and the risk factors it should follow.

`PATCH /:id/cdd` derives the level from the classification of the customer and from its risk
rating.  An edit of the profile, the approval of one, the computation of the risk score and a file
that is imported write these two as well, and leave the level as it is.  So the level follows the
factors in runs in which such a write leaves factors that the level already stands for.
-/
import NexusEfos.Customers.Decisions
import NexusEfos.Customers.Import
import NexusEfos.Loans.Disbursements

namespace NexusEfos

open Proc

/-- A level stands for a classification and a rating. -/
def CddLevel.StandsFor (level : CddLevel) (pepStatus : PepStatus)
    (riskRating : Option RiskRating) : Prop :=
  level = .enhanced ↔ pepStatus ≠ .notPep ∨ riskRating = some .high

instance (level : CddLevel) (pepStatus : PepStatus) (riskRating : Option RiskRating) :
    Decidable (level.StandsFor pepStatus riskRating) := inferInstanceAs (Decidable (_ ↔ _))

/-- The level of every customer follows from its risk factors. -/
def Db.Diligent (s : Db) : Prop :=
  ∀ id c, s.find? .customer id = some c → c.cddLevel.StandsFor c.pepStatus c.profile.riskRating

theorem Db.diligent_iff {s : Db} : s.Diligent ↔
    ∀ c ∈ (s.table .customer).values,
      (c : Customer).cddLevel.StandsFor c.pepStatus c.profile.riskRating := by
  constructor
  · intro hs c hc
    obtain ⟨id, hid⟩ := OrderedMap.mem_values.mp hc
    exact hs id c hid
  · intro hs id c hc
    exact hs c (OrderedMap.mem_values.mpr ⟨id, hc⟩)

instance (s : Db) : Decidable s.Diligent := decidable_of_iff _ Db.diligent_iff.symm

/-- The level that a customer has, or a new one gets, stands for the factors that are written. -/
def RiskWrite.Followed (w : RiskWrite) (s : Db) : Prop :=
  match w.customerId with
  | none => CddLevel.standard.StandsFor (w.pepStatus.getD .notPep) w.riskRating
  | some customerId => ∀ c ∈ s.find? .customer customerId,
    c.cddLevel.StandsFor (w.pepStatus.getD c.pepStatus) w.riskRating

instance (w : RiskWrite) (s : Db) : Decidable (w.Followed s) := by
  unfold RiskWrite.Followed
  cases w.customerId <;> infer_instance

/-- The write of the risk rating that an approved change of a profile comes with. -/
def Resolution.risk? (x : Resolution) : Option RiskWrite :=
  if x.approved = true ∧ x.request.type = .customerProfileUpdate then
    x.request.payload.profile.riskRating.map fun riskRating =>
      ⟨some x.request.targetId, none, riskRating⟩
  else none

/-- The risk factors that a statement writes, itself or with a decision, are those that the level
stands for. -/
def Access.KeepsDiligence (lab : Access) (s : Db) : Prop :=
  (∀ w ∈ lab.risk, w.Followed s) ∧ ∀ x ∈ lab.resolves, ∀ w ∈ x.risk?, w.Followed s

instance (lab : Access) (s : Db) : Decidable (lab.KeepsDiligence s) :=
  inferInstanceAs (Decidable ((∀ w ∈ lab.risk, _) ∧ ∀ x ∈ lab.resolves, ∀ w ∈ x.risk?, _))

/-- The classification, the rating and the level of a customer stay. -/
def Customer.SameRisk (c c' : Customer) : Prop :=
  c'.cddLevel = c.cddLevel ∧ c'.pepStatus = c.pepStatus ∧
    c'.profile.riskRating = c.profile.riskRating

/-- The customers are those that there were, with the same risk. -/
def Db.KeepsRisk (s t : Db) : Prop :=
  ∀ id c', t.find? .customer id = some c' → ∃ c, s.find? .customer id = some c ∧ c.SameRisk c'

section Steps

variable {s t : Db}

theorem Db.KeepsRisk.of_agree (h : s.Agree [.customer] t) : s.KeepsRisk t := by
  intro id c hc
  rw [h.find? (List.mem_singleton_self _)] at hc
  exact ⟨c, hc, rfl, rfl, rfl⟩

theorem Db.Diligent.keepsRisk (hs : s.Diligent) (h : s.KeepsRisk t) : t.Diligent := by
  intro id c' hc'
  obtain ⟨c, hc, hlevel, hpep, hrating⟩ := h id c' hc'
  rw [hlevel, hpep, hrating]
  exact hs id c hc

/-- One customer is rewritten, and its level stands for its factors. -/
theorem Db.Diligent.modify (hs : s.Diligent) {customerId : Id} {f : Customer → Customer}
    (hf : ∀ c, s.find? .customer customerId = some c →
      (f c).cddLevel.StandsFor (f c).pepStatus (f c).profile.riskRating) :
    (s.modify .customer customerId f).Diligent := by
  intro id c' hc'
  rw [Db.find?_modify] at hc'
  split at hc'
  · next hid =>
    obtain ⟨c, hc, rfl⟩ := Option.map_eq_some_iff.mp hc'
    exact hf c (hid ▸ hc)
  · exact hs id c' hc'

theorem Db.Diligent.insert (hs : s.Diligent) {c : Customer}
    (hc : c.cddLevel.StandsFor c.pepStatus c.profile.riskRating) :
    (s.insert .customer c).Diligent := by
  intro id c' hc'
  rw [Db.find?_insert] at hc'
  split at hc'
  · obtain rfl := Option.some.inj hc'
    exact hc
  · exact hs id c' hc'

/-- What a statement does to the customers, if it is one that keeps their levels in step. -/
def DiligenceStep (lab : Access) (s t : Db) : Prop := lab.KeepsDiligence s → s.Diligent → t.Diligent

theorem DiligenceStep.of_keepsRisk {α : Type} {p : Handler α} (hp : p.Every Db.KeepsRisk) :
    p.EveryStep DiligenceStep :=
  .of_every (fun _ _ _ hkeeps _ hs => hs.keepsRisk hkeeps) hp

theorem DiligenceStep.of_quiet {α : Type} {p : Handler α} (hp : Quiet [.customer] p) :
    p.EveryStep DiligenceStep :=
  of_keepsRisk (hp.imp fun _ _ => .of_agree)

/-- An update of a customer that writes the factors it says. -/
theorem DiligenceStep.updateAs {lab : Access} {customerId : Id} {f : Customer → Customer}
    (hf : ∀ s c, lab.KeepsDiligence s → s.find? .customer customerId = some c →
      c.cddLevel.StandsFor c.pepStatus c.profile.riskRating →
      (f c).cddLevel.StandsFor (f c).pepStatus (f c).profile.riskRating) :
    (updateAs lab .customer customerId f).EveryStep DiligenceStep := by
  refine ⟨fun s hlab hs => ?_, fun _ => trivial⟩
  dsimp only
  split
  · exact hs.modify fun c hc => hf s c hlab hc (hs customerId c hc)
  · exact hs

/-- A new customer whose factors are those that it says. -/
theorem DiligenceStep.createCustomerRow {lab : Access} {c : Customer}
    (hc : ∀ s, lab.KeepsDiligence s → c.cddLevel.StandsFor c.pepStatus c.profile.riskRating) :
    (createCustomerRowAs lab c).EveryStep DiligenceStep := by
  refine ⟨fun s hlab hs => ?_, fun _ => trivial⟩
  dsimp only
  split
  · exact hs
  · exact hs.insert (hc s hlab)

theorem DiligenceStep.createCustomer (isEmail : String → Bool) (js : Js CreateCustomer)
    (equalsInsensitive : String → String → Bool) (auth : Auth) (now : DateTime)
    (customerNumber : String) (body : CreateCustomer) :
    (createCustomer isEmail js equalsInsensitive auth now customerNumber body).EveryStep
      DiligenceStep := by
  refine (EveryStep.require _ _).bind fun _ => ?_
  refine (of_quiet (Quiet.query _)).bind fun watchlistMatch => ?_
  refine (of_quiet (Quiet.query _)).bind fun existingCustomers => ?_
  refine (of_quiet (Quiet.matchRules _ _ _ _ _)).bind fun matched => ?_
  refine (EveryStep.require _ _).bind fun _ => ?_
  apply EveryStep.bind
  · apply createCustomerRow
    intro _ _
    show CddLevel.standard.StandsFor .notPep none
    decide
  · intro customer
    apply of_quiet
    refine (Quiet.executeMatchedRules (by decide) (by decide) _ _ _ _ _).bind fun _ => ?_
    have hlog : ∀ log : AuditLog, Quiet [.customer] (do
        let _ ← create .auditLog log
        return customer) := fun _ =>
      (Quiet.create (by decide) _).bind fun _ => Quiet.pure _
    split
    · exact (Quiet.create (by decide) _).bind fun _ => hlog _
    · exact hlog _

theorem DiligenceStep.updateCustomer (isEmail : String → Bool) (versionNo : Db → Id → Option ℤ)
    (auth : Auth) (customerId : Id) (expectedVersion : Option ℤ) (patch : CustomerProfilePatch) :
    (updateCustomer isEmail versionNo auth customerId expectedVersion patch).EveryStep
      DiligenceStep := by
  have hlog : ∀ (log : AuditLog) (answer : Option Id), (do
      let _ ← create .auditLog log
      return answer).EveryStep DiligenceStep := fun _ _ =>
    of_quiet ((Quiet.create (by decide) _).bind fun _ => Quiet.pure _)
  refine (EveryStep.require _ _).bind fun _ => ?_
  refine (of_quiet (Quiet.query _)).bind fun _ => ?_
  refine (EveryStep.orFail _ _).bind fun existing => ?_
  refine (EveryStep.require _ _).bind fun _ => ?_
  apply EveryStep.bind
  · unfold checkVersion
    split
    · trivial
    · exact of_quiet ((Quiet.query _).bind fun _ => Quiet.require _ _)
  · intro _
    split
    · refine (of_quiet (Quiet.create (by decide) _)).bind fun _ => EveryStep.bind ?_ fun _ => hlog ..
      exact updateAs fun _ _ _ _ hc => hc
    · apply EveryStep.bind
      · apply updateAs
        intro s c hlab hfound hc
        show c.cddLevel.StandsFor c.pepStatus (patch.riskRating.getD c.profile.riskRating)
        cases hrating : patch.riskRating with
        | none => exact hc
        | some riskRating =>
          rw [hrating] at hlab
          exact hlab.1 _ rfl c hfound
      · exact fun _ => hlog ..

theorem DiligenceStep.recomputeRiskScore (auth : Auth) (customerId : Id) :
    (recomputeRiskScore auth customerId).EveryStep DiligenceStep := by
  refine (of_quiet (Quiet.query _)).bind fun _ => ?_
  refine (EveryStep.orFail _ _).bind fun customer => EveryStep.bind ?_ fun _ => ?_
  · exact updateAs fun s c hlab hfound _ => hlab.1 _ rfl c hfound
  · exact of_quiet ((Quiet.create (by decide) _).bind fun _ => Quiet.pure _)

/-- A row of the customers writes the classification and the rating of its file. -/
theorem DiligenceStep.commitCustomers (trimLower : String → String) (toText : ℚ → String)
    (auth : Auth) (customerNumber : CustomerRow → String)
    (resolutions : String → Option DuplicateResolution) (parsed : CustomerWorkbook)
    (now : DateTime) :
    (commitCustomers trimLower toText auth customerNumber resolutions parsed now).EveryStep
      DiligenceStep := by
  have hread : ∀ s, DiligenceStep {} s s := fun _ _ hs => hs
  apply everyStep_commitCustomers hread
  · intro batchId number r
    apply everyStep_importCustomer hread
    · exact createCustomerRow fun _ hlab => hlab.1 _ rfl
    · intro customerId
      apply EveryStep.bind
      · exact updateAs fun s c hlab hfound _ => hlab.1 _ rfl c hfound
      · exact fun _ => trivial
  · exact fun _ _ => of_quiet (Quiet.update (by decide) _ _)
  · exact fun _ _ _ => of_quiet (Quiet.createAs (by decide) _ _)
  · intro m row hm
    exact of_quiet (Quiet.create (by revert hm; cases m <;> decide) row)

theorem DiligenceStep.resolve (call : ResolveCall) : call.handler.EveryStep DiligenceStep := by
  apply call.everyStep
  · exact fun _ _ _ hs => hs
  · intro request s t hrun hlab hs id c' hc'
    rcases find?_customer_of_inTx hrun id with hsame | ⟨-, hid, hdecided⟩ | ⟨primary, hmerged⟩
    · exact hs id c' (hsame ▸ hc')
    · rw [hdecided] at hc'
      obtain ⟨c, hc, rfl⟩ := Option.map_eq_some_iff.mp hc'
      have hbefore := hs id c hc
      have hwritten := hlab.2 _ rfl
      unfold Resolution.risk? at hwritten
      unfold ResolveCall.decide
      split
      · exact hbefore
      · next hdecision htype =>
        show c.cddLevel.StandsFor c.pepStatus
          (request.payload.profile.riskRating.getD c.profile.riskRating)
        cases hrating : request.payload.profile.riskRating with
        | none => exact hbefore
        | some riskRating =>
          have happroved : decide (call.decision = .approve) = true ∧
              request.type = .customerProfileUpdate := ⟨decide_eq_true hdecision, htype⟩
          rw [if_pos happroved, hrating] at hwritten
          exact hwritten _ rfl c (hid ▸ hc)
      all_goals exact hbefore
    · rw [hmerged] at hc'
      obtain ⟨c, hc, rfl⟩ := Option.map_eq_some_iff.mp hc'
      exact hs id c hc

theorem cddLevelFor_standsFor (pepStatus : PepStatus) (riskRating : Option RiskRating) :
    (cddLevelFor pepStatus riskRating).StandsFor pepStatus riskRating := by
  unfold cddLevelFor CddLevel.StandsFor
  split
  · next hrisk => exact iff_of_true rfl hrisk
  · next hrisk => exact iff_of_false (by decide) hrisk

/-- A customer is classified, with nothing else in between: the level follows. -/
theorem run_updateCdd_diligent (auth : Auth) (now : DateTime) (customerId : Id)
    (pepStatus : Option PepStatus) (cddNotes : Option String) (hs : s.Diligent) :
    ((updateCdd auth now customerId pepStatus cddNotes).run s).2.Diligent := by
  have hends : (updateCdd auth now customerId pepStatus cddNotes).Ends
      (fun _ t => t.Diligent) s := by
    apply ends_query
    apply Ends.orFail
    · intro existing hexisting
      have hfound := (Option.filter_eq_some_iff.mp hexisting).1
      apply Ends.require
      · intro _
        apply ends_updateAs
        · intro _ _
          apply ends_create
          apply Db.Diligent.keepsRisk _ (.of_agree (.insert (m := .auditLog) (by decide) _ _))
          apply hs.modify
          intro c hc
          obtain rfl := Option.some.inj (hfound.symm.trans hc)
          exact cddLevelFor_standsFor _ _
        · exact fun _ => hs
      · exact fun _ => hs
    · exact fun _ => hs
  exact hends

end Steps

/-! ## Runs of the calls -/

/-- The calls of a run.  The last constructor stands for every other endpoint that keeps the risk
of the customers as it is. -/
inductive DiligenceCall
  | createCustomer (isEmail : String → Bool) (js : Js CreateCustomer)
      (equalsInsensitive : String → String → Bool) (auth : Auth) (now : DateTime)
      (customerNumber : String) (body : CreateCustomer)
  | updateCustomer (isEmail : String → Bool) (versionNo : Db → Id → Option ℤ) (auth : Auth)
      (customerId : Id) (expectedVersion : Option ℤ) (patch : CustomerProfilePatch)
  | resolve (call : ResolveCall)
  | updateCdd (auth : Auth) (now : DateTime) (customerId : Id) (pepStatus : Option PepStatus)
      (cddNotes : Option String)
  | recomputeRiskScore (auth : Auth) (customerId : Id)
  | commit (trimLower : String → String) (toText : ℚ → String) (auth : Auth)
      (customerNumber : CustomerRow → String) (resolutions : String → Option DuplicateResolution)
      (parsed : CustomerWorkbook) (now : DateTime)
  | other (p : Handler Unit) (h : p.Every Db.KeepsRisk)

def DiligenceCall.handler : DiligenceCall → Handler Unit
  | createCustomer isEmail js equalsInsensitive auth now customerNumber body => do
    let _ ← NexusEfos.createCustomer isEmail js equalsInsensitive auth now customerNumber body
  | updateCustomer isEmail versionNo auth customerId expectedVersion patch => do
    let _ ← NexusEfos.updateCustomer isEmail versionNo auth customerId expectedVersion patch
  | resolve call => call.handler
  | updateCdd auth now customerId pepStatus cddNotes =>
    NexusEfos.updateCdd auth now customerId pepStatus cddNotes
  | recomputeRiskScore auth customerId => do
    let _ ← NexusEfos.recomputeRiskScore auth customerId
  | commit trimLower toText auth customerNumber resolutions parsed now => do
    let _ ← commitCustomers trimLower toText auth customerNumber resolutions parsed now
  | other p _ => p

/-- A call whose writes of risk factors are followed keeps the levels in step. -/
theorem DiligenceCall.run_diligent (call : DiligenceCall) {s : Db} (hs : s.Diligent)
    (hmeets : call.handler.Meets Access.KeepsDiligence s) : (call.handler.run s).2.Diligent := by
  have hstep : ∀ {p : Handler Unit}, p.EveryStep DiligenceStep →
      p.Meets Access.KeepsDiligence s → (p.run s).2.Diligent := fun hp hA =>
    hp.run (R := fun s t => s.Diligent → t.Diligent) (fun _ h => h) (fun h h' hs => h' (h hs))
      (fun _ _ _ hstep hlab => hstep hlab) hA hs
  cases call with
  | createCustomer isEmail js equalsInsensitive auth now customerNumber body =>
    exact hstep ((DiligenceStep.createCustomer isEmail js equalsInsensitive auth now customerNumber
      body).bind fun _ => trivial) hmeets
  | updateCustomer isEmail versionNo auth customerId expectedVersion patch =>
    exact hstep ((DiligenceStep.updateCustomer isEmail versionNo auth customerId expectedVersion
      patch).bind fun _ => trivial) hmeets
  | resolve call => exact hstep (DiligenceStep.resolve call) hmeets
  | updateCdd auth now customerId pepStatus cddNotes =>
    exact run_updateCdd_diligent auth now customerId pepStatus cddNotes hs
  | recomputeRiskScore auth customerId =>
    exact hstep ((DiligenceStep.recomputeRiskScore auth customerId).bind fun _ => trivial) hmeets
  | commit trimLower toText auth customerNumber resolutions parsed now =>
    exact hstep ((DiligenceStep.commitCustomers trimLower toText auth customerNumber resolutions
      parsed now).bind fun _ => trivial) hmeets
  | other p h => exact hstep (DiligenceStep.of_keepsRisk h) hmeets

/-- After every sequence of calls in which the risk factors that are written are those the level
stands for, the level of every customer follows from its risk factors. -/
theorem diligence_follows_risk (calls : List DiligenceCall) (s : Db) (hs : s.Diligent)
    (hmeets : MeetsAll Access.KeepsDiligence (calls.map DiligenceCall.handler) s) :
    (runAll (calls.map DiligenceCall.handler) s).Diligent := by
  apply runAll_induction _ hs hmeets
  intro p hp s hs hmeets
  obtain ⟨call, -, rfl⟩ := List.mem_map.mp hp
  exact call.run_diligent hs hmeets

/-- A customer, one on the watchlist, and one whose high risk is to be approved. -/
def diligenceBook : Db :=
  let request : ApprovalRequest :=
    { institutionId := 1, type := .customerProfileUpdate, targetType := "Customer", targetId := 3,
      payload := { profile := { fullName := some "Ama Mensah", riskRating := some (some .high) } },
      requestedById := 1 }
  let customers := ((Db.empty.insert .customer ({ institutionId := 1 } : Customer)).insert .customer
    ({ institutionId := 1, watchlistFlag := true } : Customer)).insert .customer
      ({ institutionId := 1, status := .pendingApproval } : Customer)
  (customers.insert .branch ({ institutionId := 1, name := "main", code := "HQ" } : Branch)).insert
    .approvalRequest request

/-- An edit that rates the first customer a high risk. -/
def rateHigh : DiligenceCall :=
  .updateCustomer (fun _ => true) (fun _ _ => none) ⟨1, 1⟩ 1 none { riskRating := some (some .high) }

/-- A file with a customer who holds a public office abroad. -/
def foreignPepFile : CustomerWorkbook :=
  { customers :=
      [{ rowNumber := 2, fullName := "Kofi Mensah", phone := "0244111223", segment := "INDIVIDUAL",
         branch := "main", pepStatus := "FOREIGN_PEP" }] }

/-- The customer has been classified before it is rated. -/
theorem diligence_follows_risk_classifiedFirst :
    (runAll ([.updateCdd ⟨1, 1⟩ 5 1 (some .domesticPep) none, rateHigh].map DiligenceCall.handler)
      diligenceBook).Diligent :=
  diligence_follows_risk [.updateCdd ⟨1, 1⟩ 5 1 (some .domesticPep) none, rateHigh] diligenceBook
    (by decide +kernel) (by decide +kernel)

/-- An edit, the approval of one, the risk score of a customer on the watchlist, and a file. -/
theorem diligence_lags_behind_risk :
    diligenceBook.Diligent ∧
      ¬ (rateHigh.handler.run diligenceBook).2.Diligent ∧
      ¬ ((DiligenceCall.resolve { decision := .approve, auth := ⟨1, 2⟩, now := 5, requestId := 1 }
        ).handler.run diligenceBook).2.Diligent ∧
      ¬ ((DiligenceCall.recomputeRiskScore ⟨1, 1⟩ 2).handler.run diligenceBook).2.Diligent ∧
      ¬ ((DiligenceCall.commit id toString ⟨1, 1⟩ (fun _ => "CUST-1") (fun _ => none)
        foreignPepFile 10).handler.run diligenceBook).2.Diligent := by
  decide +kernel

end NexusEfos
