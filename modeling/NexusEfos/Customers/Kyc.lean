/-
Customers who are verified or active, and whether they have been identified.

The status of a customer and the state of its identification are changed by different endpoints.  A
change of the status looks at the identification, and a customer whom a request is pending about is
locked, so that an approval finds it as the request did.  The change of the identification does not
look at the status: nobody is active without it in runs in which no identification of a customer who
is verified or active is taken back.
-/
import NexusEfos.Customers.Decisions
import NexusEfos.Customers.Import
import NexusEfos.Loans.Disbursements

namespace NexusEfos

open Proc

/-! ## The invariant -/

/-- A customer who is verified or active has been identified. -/
def Customer.Identified (c : Customer) : Prop :=
  c.status ∈ [AccountStatus.verified, .active] → c.kycStatus = .verified

instance (c : Customer) : Decidable c.Identified := inferInstanceAs (Decidable (_ → _))

/-- The status of a customer stays, and so does its identification. -/
def Customer.SameStanding (c c' : Customer) : Prop :=
  c'.status = c.status ∧ c'.kycStatus = c.kycStatus

theorem Customer.Identified.same {c c' : Customer} (hc : c.Identified) (h : c.SameStanding c') :
    c'.Identified := by
  unfold Customer.Identified
  rw [h.1, h.2]
  exact hc

/-- A request about the status of a customer is pending. -/
def Db.Awaits (s : Db) (requestId : Id) (request : ApprovalRequest) : Prop :=
  s.find? .approvalRequest requestId = some request ∧ request.status = .pending ∧
    request.type ∈ customerRequests

/-- What the customer of a pending request is like: it is locked, and the decision can only lead
to a status that the customer may have. -/
def ApprovalRequest.Governs (request : ApprovalRequest) (c : Customer) : Prop :=
  (request.type ≠ .amlAdjudication ∧ c.status = .pendingApproval ∧ c.kycStatus = .verified) ∨
    (request.type = .amlAdjudication ∧ c.status = .blacklisted ∧
      request.payload.previousStatus = some .registered)

/-- Every customer who is verified or active has been identified, and a request that is pending
governs its customer, alone. -/
structure Db.KycSound (s : Db) : Prop where
  identified : ∀ id c, s.find? .customer id = some c → c.Identified
  governed : ∀ r request, s.Awaits r request →
    ∃ c, s.find? .customer request.targetId = some c ∧ request.Governs c
  distinct : ∀ r request r' request', s.Awaits r request → s.Awaits r' request' →
    request.targetId = request'.targetId → r = r'

/-- The customers keep their standing, new ones have been identified if they need be, and no
request about a customer is filed. -/
structure Db.KeepsStanding (s t : Db) : Prop where
  kept : ∀ id c, s.find? .customer id = some c →
    ∃ c', t.find? .customer id = some c' ∧ c.SameStanding c'
  new : ∀ id c, t.find? .customer id = some c → s.find? .customer id = none → c.Identified
  requests : ∀ r request, t.Awaits r request → s.Awaits r request

section Invariant

variable {s t u : Db}

theorem kycSound_empty : Db.empty.KycSound := by
  have hnone : ∀ m id, Db.empty.find? m id = none := fun _ _ => rfl
  have hnothing : ∀ r request, ¬ Db.empty.Awaits r request := by
    intro r request hr
    exact absurd ((hnone _ r).symm.trans hr.1) (Option.some_ne_none _).symm
  constructor
  · intro id c hc
    exact absurd ((hnone _ id).symm.trans hc) (Option.some_ne_none _).symm
  · intro r request hr
    exact absurd hr (hnothing r request)
  · intro r request r' request' hr
    exact absurd hr (hnothing r request)

theorem Db.KeepsStanding.refl (s : Db) : s.KeepsStanding s where
  kept _ c hc := ⟨c, hc, rfl, rfl⟩
  new _ _ hc hnone := absurd (hc.symm.trans hnone) nofun
  requests _ _ h := h

theorem Db.KeepsStanding.trans (h : s.KeepsStanding t) (h' : t.KeepsStanding u) :
    s.KeepsStanding u where
  kept id c hc := by
    obtain ⟨c', hc', hsame⟩ := h.kept id c hc
    obtain ⟨c'', hc'', hsame'⟩ := h'.kept id c' hc'
    exact ⟨c'', hc'', hsame'.1.trans hsame.1, hsame'.2.trans hsame.2⟩
  new id c hc hnone := by
    cases ht : t.find? .customer id with
    | none => exact h'.new id c hc ht
    | some c' =>
      obtain ⟨c'', hc'', hsame⟩ := h'.kept id c' ht
      obtain rfl := Option.some.inj (hc.symm.trans hc'')
      exact (h.new id c' ht hnone).same hsame
  requests r request hr := h.requests r request (h'.requests r request hr)

theorem Db.KeepsStanding.of_agree (h : s.Agree [.customer, .approvalRequest] t) :
    s.KeepsStanding t where
  kept id c hc := ⟨c, by rwa [h.find? (List.mem_cons_self ..)], rfl, rfl⟩
  new id c hc hnone := by
    rw [h.find? (List.mem_cons_self ..), hnone] at hc
    exact absurd hc nofun
  requests r request hr := by
    refine ⟨?_, hr.2⟩
    have hfound := hr.1
    rwa [h.find? (by simp)] at hfound

/-- A customer is rewritten and keeps its standing. -/
theorem Db.KeepsStanding.modify_customer (s : Db) (id : Id) {f : Customer → Customer}
    (hf : ∀ c : Customer, c.SameStanding (f c)) : s.KeepsStanding (s.modify .customer id f) where
  kept id' c hc := by
    rw [Db.find?_modify, hc]
    split
    · exact ⟨f c, rfl, hf c⟩
    · exact ⟨c, rfl, rfl, rfl⟩
  new id' c hc hnone := by
    rw [Db.find?_modify, hnone] at hc
    split at hc <;> exact absurd hc nofun
  requests r request hr := by
    refine ⟨?_, hr.2⟩
    have hfound := hr.1
    rwa [Db.find?_modify_of_ne (by decide)] at hfound

theorem Db.KeepsStanding.insert_customer (s : Db) {c : Customer} (hc : c.Identified) :
    s.KeepsStanding (s.insert .customer c) where
  kept id c' hc' := by
    refine ⟨c', ?_, rfl, rfl⟩
    rw [Db.find?_insert, if_neg, hc']
    rintro rfl
    have hnone : s.find? .customer (s.nextId .customer) = none := OrderedMap.get?_nextKey _
    exact absurd (hc'.symm.trans hnone) nofun
  new id c' hc' hnone := by
    rw [Db.find?_insert] at hc'
    split at hc'
    · obtain rfl := Option.some.inj hc'
      exact hc
    · exact absurd (hc'.symm.trans hnone) nofun
  requests r request hr := by
    refine ⟨?_, hr.2⟩
    have hfound := hr.1
    rwa [Db.find?_insert_of_ne (by decide)] at hfound

/-- A request about something else. -/
theorem Db.KeepsStanding.insert_request (s : Db) {request : ApprovalRequest}
    (htype : request.type ∉ customerRequests) :
    s.KeepsStanding (s.insert .approvalRequest request) where
  kept id c hc := ⟨c, by rwa [Db.find?_insert_of_ne (by decide)], rfl, rfl⟩
  new id c hc hnone := by
    rw [Db.find?_insert_of_ne (by decide), hnone] at hc
    exact absurd hc nofun
  requests r request' hr := by
    obtain ⟨hfound, hpending, hcustomer⟩ := hr
    rw [Db.find?_insert] at hfound
    split at hfound
    · obtain rfl := Option.some.inj hfound
      exact absurd hcustomer htype
    · exact ⟨hfound, hpending, hcustomer⟩

theorem ApprovalRequest.Governs.same {request : ApprovalRequest} {c c' : Customer}
    (h : request.Governs c) (hsame : c.SameStanding c') : request.Governs c' := by
  unfold ApprovalRequest.Governs
  rw [hsame.1, hsame.2]
  exact h

theorem Db.KycSound.keepsStanding (hs : s.KycSound) (h : s.KeepsStanding t) : t.KycSound where
  identified id c hc := by
    cases hfound : s.find? .customer id with
    | none => exact h.new id c hc hfound
    | some c₀ =>
      obtain ⟨c', hc', hsame⟩ := h.kept id c₀ hfound
      obtain rfl := Option.some.inj (hc.symm.trans hc')
      exact (hs.identified id c₀ hfound).same hsame
  governed r request hr := by
    obtain ⟨c, hc, hgoverns⟩ := hs.governed r request (h.requests r request hr)
    obtain ⟨c', hc', hsame⟩ := h.kept _ c hc
    exact ⟨c', hc', hgoverns.same hsame⟩
  distinct r request r' request' hr hr' :=
    hs.distinct r request r' request' (h.requests r request hr) (h.requests r' request' hr')

/-- No request is pending about a customer who is not locked. -/
theorem Db.KycSound.free (hs : s.KycSound) {id : Id} {c : Customer}
    (hc : s.find? .customer id = some c) (hunlocked : c.status ∉ lockedStatuses) {r : Id}
    {request : ApprovalRequest} (hr : s.Awaits r request) : request.targetId ≠ id := by
  rintro rfl
  obtain ⟨c', hc', hgoverns⟩ := hs.governed r request hr
  obtain rfl := Option.some.inj (hc.symm.trans hc')
  rcases hgoverns with ⟨-, hstatus, -⟩ | ⟨-, hstatus, -⟩
  · exact hunlocked (hstatus ▸ by decide)
  · exact hunlocked (hstatus ▸ by decide)

/-- A customer whom no request is pending about gets a standing that it may have. -/
theorem Db.KycSound.modify (hs : s.KycSound) {id : Id} {f : Customer → Customer}
    (hfree : ∀ r request, s.Awaits r request → request.targetId ≠ id)
    (hf : ∀ c, s.find? .customer id = some c → (f c).Identified) :
    (s.modify .customer id f).KycSound := by
  have hrequests : ∀ r request, (s.modify .customer id f).Awaits r request ↔ s.Awaits r request := by
    intro r request
    unfold Db.Awaits
    rw [Db.find?_modify_of_ne (by decide)]
  constructor
  · intro id' c' hc'
    rw [Db.find?_modify] at hc'
    split at hc'
    · next hid =>
      obtain ⟨c, hc, rfl⟩ := Option.map_eq_some_iff.mp hc'
      exact hf c (hid ▸ hc)
    · exact hs.identified id' c' hc'
  · intro r request hr
    have hawaits := (hrequests r request).mp hr
    obtain ⟨c, hc, hgoverns⟩ := hs.governed r request hawaits
    refine ⟨c, ?_, hgoverns⟩
    rw [Db.find?_modify, if_neg (hfree r request hawaits), hc]
  · intro r request r' request' hr hr'
    exact hs.distinct r request r' request' ((hrequests r request).mp hr)
      ((hrequests r' request').mp hr')

/-- A request is filed about a customer whom none is pending about, and the customer is marked. -/
theorem Db.KycSound.file (hs : s.KycSound) {request : ApprovalRequest} {c : Customer}
    (hc : s.find? .customer request.targetId = some c) {mark : Customer → Customer}
    (hfree : ∀ r request', s.Awaits r request' → request'.targetId ≠ request.targetId)
    (hidentified : (mark c).Identified) (hgoverns : request.Governs (mark c)) :
    ((s.insert .approvalRequest request).modify .customer request.targetId mark).KycSound := by
  have hcustomer : ∀ id,
      ((s.insert .approvalRequest request).modify .customer request.targetId mark).find? .customer
        id = if id = request.targetId then some (mark c) else s.find? .customer id := by
    intro id
    rw [Db.find?_modify, Db.find?_insert_of_ne (by decide)]
    split
    · next hid =>
      rw [hid, hc]
      rfl
    · rfl
  have hrequests : ∀ r request',
      ((s.insert .approvalRequest request).modify .customer request.targetId mark).Awaits r
        request' → (r = s.nextId .approvalRequest ∧ request' = request) ∨ s.Awaits r request' := by
    intro r request' hr
    obtain ⟨hfound, hpending⟩ := hr
    rw [Db.find?_modify_of_ne (by decide), Db.find?_insert] at hfound
    split at hfound
    · next hid => exact .inl ⟨hid, (Option.some.inj hfound).symm⟩
    · exact .inr ⟨hfound, hpending⟩
  constructor
  · intro id c' hc'
    rw [hcustomer] at hc'
    split at hc'
    · obtain rfl := Option.some.inj hc'
      exact hidentified
    · exact hs.identified id c' hc'
  · intro r request' hr
    rcases hrequests r request' hr with ⟨-, rfl⟩ | hold
    · exact ⟨mark c, by rw [hcustomer, if_pos rfl], hgoverns⟩
    · obtain ⟨c', hc', hgoverns'⟩ := hs.governed r request' hold
      exact ⟨c', by rw [hcustomer, if_neg (hfree r request' hold), hc'], hgoverns'⟩
  · intro r request' r' request'' hr hr' htarget
    rcases hrequests r request' hr with ⟨hid, rfl⟩ | hold <;>
      rcases hrequests r' request'' hr' with ⟨hid', rfl⟩ | hold'
    · rw [hid, hid']
    · exact absurd htarget.symm (hfree r' request'' hold')
    · exact absurd htarget (hfree r request' hold)
    · exact hs.distinct r request' r' request'' hold hold' htarget

/-- A decision about a request that has been read while it was pending. -/
theorem Db.KycSound.decide (hs : s.KycSound) {call : ResolveCall} {request : ApprovalRequest}
    {u : Unit} (hfound : s.find? .approvalRequest call.requestId = some request)
    (hrun : (call.inTx request).run s = (.ok u, t)) : t.KycSound := by
  obtain ⟨row, hrow, hpending, hrequests⟩ := ResolveCall.run_inTx_eq_ok hrun
  obtain rfl : request = row := Option.some.inj (hfound.symm.trans hrow)
  have hothers : ∀ r request', t.Awaits r request' → r ≠ call.requestId ∧ s.Awaits r request' := by
    intro r request' ⟨hfound', hpending', htype'⟩
    rw [hrequests] at hfound'
    split at hfound'
    · obtain rfl := Option.some.inj hfound'
      exact absurd hpending' (call.resolve_status_ne request)
    · next hid => exact ⟨hid, hfound', hpending', htype'⟩
  have hmerged : ∀ (primary : Id) (c : Customer), c.SameStanding (c.mergeInto primary) :=
    fun _ _ => ⟨rfl, rfl⟩
  constructor
  · intro id c' hc'
    rcases find?_customer_of_inTx hrun id with hsame | ⟨htype, hid, hdecided⟩ | ⟨primary, hmerge⟩
    · exact hs.identified id c' (hsame ▸ hc')
    · rw [hdecided] at hc'
      obtain ⟨c, hc, rfl⟩ := Option.map_eq_some_iff.mp hc'
      obtain ⟨c₀, hc₀, hgoverns⟩ := hs.governed call.requestId request ⟨hrow, hpending, htype⟩
      obtain rfl : c = c₀ := Option.some.inj (hc.symm.trans (hid ▸ hc₀))
      have hbefore := hs.identified id c hc
      rcases hgoverns with ⟨haml, -, hkyc⟩ | ⟨haml, -, hprevious⟩
      · have hkept : (call.decide request c).kycStatus = c.kycStatus := by
          unfold ResolveCall.decide
          split <;> rfl
        exact fun _ => hkept.trans hkyc
      · unfold ResolveCall.decide
        rw [haml, hprevious]
        cases call.decision with
        | approve =>
          intro hstatus
          have hregistered : AccountStatus.registered ∈ [AccountStatus.verified, .active] := hstatus
          exact absurd hregistered (by decide)
        | reject => exact hbefore
    · rw [hmerge] at hc'
      obtain ⟨c, hc, rfl⟩ := Option.map_eq_some_iff.mp hc'
      exact (hs.identified id c hc).same (hmerged primary c)
  · intro r request' hr
    obtain ⟨hne, hold⟩ := hothers r request' hr
    obtain ⟨c, hc, hgoverns⟩ := hs.governed r request' hold
    rcases find?_customer_of_inTx hrun request'.targetId with
      hsame | ⟨htype, hid, -⟩ | ⟨primary, hmerge⟩
    · exact ⟨c, hsame.trans hc, hgoverns⟩
    · exact absurd (hs.distinct r request' call.requestId request hold ⟨hrow, hpending, htype⟩ hid)
        hne
    · refine ⟨c.mergeInto primary, ?_, hgoverns.same (hmerged primary c)⟩
      rw [hmerge, hc]
      rfl
  · intro r request' r' request'' hr hr'
    exact hs.distinct r request' r' request'' (hothers r request' hr).2
      (hothers r' request'' hr').2

end Invariant

/-! ## The endpoints, each with nothing else in between -/

theorem quiet_keepsStanding {α : Type} {p : Handler α}
    (hp : Quiet [.customer, .approvalRequest] p) : p.Every Db.KeepsStanding :=
  hp.imp fun _ _ => .of_agree

theorem createCustomerRow_keepsStanding {lab : Access} {c : Customer} (hc : c.Identified) :
    (createCustomerRowAs lab c).Every Db.KeepsStanding := by
  refine ⟨fun s => ?_, fun _ => trivial⟩
  dsimp only
  split
  · exact .refl s
  · exact .insert_customer s hc

theorem updateAs_keepsStanding {lab : Access} {customerId : Id} {f : Customer → Customer}
    (hf : ∀ c : Customer, c.SameStanding (f c)) :
    (updateAs lab .customer customerId f).Every Db.KeepsStanding := by
  refine ⟨fun s => ?_, fun _ => trivial⟩
  dsimp only
  split
  · exact .modify_customer s customerId hf
  · exact .refl s

theorem executeMatchedRules_keepsStanding (institutionId userId : Id) (targetType : String)
    (targetId : Id) (matched : List MatchedRule) :
    (executeMatchedRules institutionId userId targetType targetId matched).Every
      Db.KeepsStanding := by
  have haudit : ∀ row, (create .auditLog row).Every Db.KeepsStanding := fun _ =>
    quiet_keepsStanding (Quiet.create (by decide) _)
  apply Every.mapEach
  intro m _
  refine Every.bind ?_ fun _ => (haudit _).bind fun _ => trivial
  apply Every.mapEach
  intro action _
  unfold executeAction
  cases action.type with
  | flag => exact (haudit _).bind fun _ => trivial
  | requireAdditionalApproval =>
    refine Every.bind ⟨fun s => ?_, fun _ => trivial⟩ fun _ => trivial
    apply Db.KeepsStanding.insert_request
    show ApprovalRequestType.businessRuleTriggered ∉ customerRequests
    decide
  | reject => trivial

theorem commitCustomers_keepsStanding (trimLower : String → String) (toText : ℚ → String)
    (auth : Auth) (customerNumber : CustomerRow → String)
    (resolutions : String → Option DuplicateResolution) (parsed : CustomerWorkbook)
    (now : DateTime) :
    (commitCustomers trimLower toText auth customerNumber resolutions parsed now).Every
      Db.KeepsStanding := by
  have hstep : ∀ {α : Type} {p : Handler α}, p.Every Db.KeepsStanding →
      p.EveryStep fun _ => Db.KeepsStanding := .of_every fun _ _ _ h => h
  apply EveryStep.every
  apply everyStep_commitCustomers
  · exact Db.KeepsStanding.refl
  · intro batchId number r
    apply everyStep_importCustomer Db.KeepsStanding.refl
    · exact hstep (createCustomerRow_keepsStanding fun _ => rfl)
    · intro customerId
      apply EveryStep.bind
      · apply hstep
        apply updateAs_keepsStanding
        exact fun _ => ⟨rfl, rfl⟩
      · exact fun _ => trivial
  · exact fun _ _ => hstep (quiet_keepsStanding (Quiet.update (by decide) _ _))
  · exact fun _ _ _ => hstep (quiet_keepsStanding (Quiet.createAs (by decide) _ _))
  · intro m row hm
    exact hstep (quiet_keepsStanding (Quiet.create (by revert hm; cases m <;> decide) row))

section Endpoints

variable {s : Db}

/-- What is left of a call writes no customer and files no request. -/
theorem Db.KycSound.ends_quiet (hs : s.KycSound) {α : Type} {p : Handler α}
    (hp : Quiet [.customer, .approvalRequest] p) : p.Ends (fun _ t => t.KycSound) s :=
  hs.keepsStanding ((quiet_keepsStanding hp).run .refl .trans s)

/-- A part of a call that keeps the standing of the customers comes first. -/
theorem Db.KycSound.ends_bind (hs : s.KycSound) {α β : Type} {p : Handler β}
    (hp : p.Every Db.KeepsStanding) {k : β → Handler α}
    (hk : ∀ b t, t.KycSound → (k b).Ends (fun _ t => t.KycSound) t) :
    (p >>= k).Ends (fun _ t => t.KycSound) s :=
  Ends.every .refl .trans hp (fun b t h => hk b t (hs.keepsStanding h))
    fun _ _ h => hs.keepsStanding h

/-- A request is filed about a customer who is verified or active, and locks it. -/
theorem Db.KycSound.ends_file (hs : s.KycSound) {customerId : Id} {existing : Customer}
    (hfound : s.find? .customer customerId = some existing)
    (hunlocked : existing.status ∉ lockedStatuses)
    (hactive : existing.status ∈ [AccountStatus.verified, .active]) {request : ApprovalRequest}
    (htarget : request.targetId = customerId) (htype : request.type ≠ .amlAdjudication) {α : Type}
    {k : Id → Row .customer → Handler α}
    (hk : ∀ r c, Quiet [.customer, .approvalRequest] (k r c)) :
    (create .approvalRequest request >>= fun r => update .customer customerId
      (fun c => { c with status := .pendingApproval }) >>= k r).Ends (fun _ t => t.KycSound) s := by
  subst htarget
  apply ends_create
  apply ends_updateAs
  · intro _ _
    apply Db.KycSound.ends_quiet
    · apply hs.file hfound
      · exact fun r request' => hs.free hfound hunlocked
      · intro hstatus
        have hpending : AccountStatus.pendingApproval ∈ [AccountStatus.verified, .active] := hstatus
        exact absurd hpending (by decide)
      · exact .inl ⟨htype, rfl, hs.identified _ existing hfound hactive⟩
    · exact hk ..
  · intro hnone
    rw [Db.find?_insert_of_ne (by decide), hfound] at hnone
    exact absurd hnone nofun

theorem ends_createCustomerRow {lab : Access} {c : Customer} {α : Type}
    {Q : Except Failure α → Db → Prop} {k : Id → Handler α}
    (hok : (k (s.nextId .customer)).Ends Q (s.insert .customer c))
    (herr : Q (.error uniqueViolation) s) : (createCustomerRowAs lab c >>= k).Ends Q s := by
  unfold createCustomerRowAs Ends
  rw [Proc.run_bind, Proc.run_attempt]
  by_cases htaken : (c.institutionId, c.profile.phone) ∈ (s.table .customer).values.map
      fun c => (c.institutionId, c.profile.phone)
  · rw [if_pos htaken]
    exact herr
  · rw [if_neg htaken]
    exact hok

/-- A request is filed about a customer who is new and blacklisted. -/
theorem Db.KycSound.ends_flag (hs : s.KycSound) {c : Customer} (hstatus : c.status = .blacklisted)
    {t : Db} (hafter : (s.insert .customer c).KeepsStanding t) {request : ApprovalRequest}
    (htarget : request.targetId = s.nextId .customer) (htype : request.type = .amlAdjudication)
    (hprevious : request.payload.previousStatus = some .registered) {α : Type}
    {k : Id → Handler α} (hk : ∀ r, Quiet [.customer, .approvalRequest] (k r)) :
    (create .approvalRequest request >>= k).Ends (fun _ t => t.KycSound) t := by
  have hidentified : c.Identified := by
    intro hactive
    rw [hstatus] at hactive
    exact absurd hactive (by decide)
  have hnew := Db.KeepsStanding.insert_customer s hidentified
  have ht := hs.keepsStanding (hnew.trans hafter)
  have hfound : (s.insert .customer c).find? .customer (s.nextId .customer) = some c := by
    rw [Db.find?_insert, if_pos rfl]
  obtain ⟨c', hc', hsame⟩ := hafter.kept _ c hfound
  rw [← htarget] at hc'
  have hblacklisted : c'.status = .blacklisted := hsame.1.trans hstatus
  apply ends_create
  apply Db.KycSound.ends_quiet
  · rw [← (t.insert .approvalRequest request).modify_id .customer request.targetId]
    apply ht.file hc'
    · -- A request that was pending before is about a customer who was there before.
      intro r request' hr
      obtain ⟨c₀, hc₀, -⟩ := hs.governed r request' ((hnew.trans hafter).requests r request' hr)
      rintro heq
      have hnone : s.find? .customer (s.nextId .customer) = none := OrderedMap.get?_nextKey _
      rw [heq, htarget, hnone] at hc₀
      exact absurd hc₀ nofun
    · intro hactive
      rw [hblacklisted] at hactive
      exact absurd hactive (by decide)
    · exact .inr ⟨htype, hblacklisted, hprevious⟩
  · exact hk _

theorem Db.KycSound.ends_createCustomer (hs : s.KycSound) (isEmail : String → Bool)
    (js : Js CreateCustomer) (equalsInsensitive : String → String → Bool) (auth : Auth)
    (now : DateTime) (customerNumber : String) (body : CreateCustomer) :
    (createCustomer isEmail js equalsInsensitive auth now customerNumber body).Ends
      (fun _ t => t.KycSound) s := by
  have hblacklisted : AccountStatus.blacklisted ∉ [AccountStatus.verified, .active] := by decide
  have hregistered : AccountStatus.registered ∉ [AccountStatus.verified, .active] := by decide
  have hlog : ∀ (log : AuditLog) (customer : Id), Quiet [.customer, .approvalRequest] (do
      let _ ← create .auditLog log
      return customer) := fun _ _ => (Quiet.create (by decide) _).bind fun _ => Quiet.pure _
  apply Ends.require
  · intro _
    apply hs.ends_bind (quiet_keepsStanding (Quiet.query _))
    intro watchlistMatch s₁ hs₁
    apply hs₁.ends_bind (quiet_keepsStanding (Quiet.query _))
    intro existingCustomers s₂ hs₂
    apply hs₂.ends_bind (quiet_keepsStanding (Quiet.matchRules _ _ _ _ _))
    intro matched s₃ hs₃
    apply Ends.require
    · intro _
      apply ends_createCustomerRow
      · cases watchlistMatch with
        | some w =>
          apply Ends.every (A := Db.KeepsStanding) .refl .trans
            (executeMatchedRules_keepsStanding _ _ _ _ _)
          · intro _ t hrules
            exact hs₃.ends_flag rfl hrules rfl rfl rfl fun _ => hlog ..
          · intro _ t hrules
            apply Db.KycSound.keepsStanding _ hrules
            apply hs₃.keepsStanding
            apply Db.KeepsStanding.insert_customer
            exact fun h => absurd h hblacklisted
        | none =>
          apply Db.KycSound.ends_bind
          · apply hs₃.keepsStanding
            apply Db.KeepsStanding.insert_customer
            exact fun h => absurd h hregistered
          · exact executeMatchedRules_keepsStanding ..
          · exact fun _ t ht => ht.ends_quiet (hlog ..)
      · exact hs₃
    · exact fun _ => hs₃
  · exact fun _ => hs

theorem Db.KycSound.ends_changeKyc (hs : s.KycSound) (auth : Auth) (customerId : Id)
    (kycStatus : Option KycStatus)
    (hkeeps : ∀ status c, kycStatus = some status → s.find? .customer customerId = some c →
      c.status ∈ [AccountStatus.verified, .active] → status = .verified) :
    (changeKyc auth customerId kycStatus).Ends (fun _ t => t.KycSound) s := by
  apply Ends.orFail
  · intro status hstatus
    apply ends_query
    apply Ends.orFail
    · intro existing hexisting
      have hfound := (Option.filter_eq_some_iff.mp hexisting).1
      apply Ends.require
      · intro hunlocked
        apply ends_updateAs
        · intro _ _
          apply Db.KycSound.ends_quiet
          · apply hs.modify
            · exact fun r request => hs.free hfound hunlocked
            · intro c hc hactive
              exact hkeeps status c hstatus hc hactive
          · exact (Quiet.create (by decide) _).bind fun _ => Quiet.pure _
        · exact fun _ => hs
      · exact fun _ => hs
    · exact fun _ => hs
  · exact fun _ => hs

theorem Db.KycSound.ends_changeCustomerStatus (hs : s.KycSound) (auth : Auth) (customerId : Id)
    (status : AccountStatus) :
    (changeCustomerStatus auth customerId status).Ends (fun _ t => t.KycSound) s := by
  apply ends_query
  apply Ends.orFail
  · intro existing hexisting
    have hfound := (Option.filter_eq_some_iff.mp hexisting).1
    apply Ends.require
    · intro hunlocked
      apply Ends.require
      · intro hkyc
        split
        · next hactive =>
          apply hs.ends_file hfound hunlocked
          · rw [hactive.1]
            decide
          · rfl
          · exact nofun
          · exact fun _ _ => (Quiet.create (by decide) _).bind fun _ => Quiet.pure _
        · apply ends_updateAs
          · intro _ _
            apply Db.KycSound.ends_quiet
            · apply hs.modify
              · exact fun r request => hs.free hfound hunlocked
              · intro c hc hstatus
                obtain rfl := Option.some.inj (hfound.symm.trans hc)
                exact hkyc hstatus
            · exact (Quiet.create (by decide) _).bind fun _ => Quiet.pure _
          · exact fun _ => hs
      · exact fun _ => hs
    · exact fun _ => hs
  · exact fun _ => hs

theorem checkVersion_reads (versionNo : Db → Id → Option ℤ) (id : Id) (expectedVersion : Option ℤ) :
    (checkVersion versionNo id expectedVersion).Every Eq := by
  cases expectedVersion with
  | none => trivial
  | some expected => exact ⟨fun _ => rfl, fun _ => Every.require _ _⟩

theorem Db.KycSound.ends_updateCustomer (hs : s.KycSound) (isEmail : String → Bool)
    (versionNo : Db → Id → Option ℤ) (auth : Auth) (customerId : Id) (expectedVersion : Option ℤ)
    (patch : CustomerProfilePatch) :
    (updateCustomer isEmail versionNo auth customerId expectedVersion patch).Ends
      (fun _ t => t.KycSound) s := by
  have hlog : ∀ (log : AuditLog) (answer : Option Id), Quiet [.customer, .approvalRequest] (do
      let _ ← create .auditLog log
      return answer) := fun _ _ => (Quiet.create (by decide) _).bind fun _ => Quiet.pure _
  apply Ends.require
  · intro _
    apply ends_query
    apply Ends.orFail
    · intro existing hexisting
      have hfound := (Option.filter_eq_some_iff.mp hexisting).1
      apply Ends.require
      · intro hunlocked
        apply Ends.every (A := Eq) (fun _ => rfl) Eq.trans (checkVersion_reads ..)
        · rintro _ _ rfl
          split
          · next hneeds =>
            apply hs.ends_file hfound hunlocked
            · have hactive := hneeds.2
              simp only [List.mem_cons, List.not_mem_nil, or_false] at hactive ⊢
              exact hactive.symm
            · rfl
            · exact nofun
            · exact fun _ _ => hlog ..
          · apply hs.ends_bind
            · exact updateAs_keepsStanding fun _ => ⟨rfl, rfl⟩
            · exact fun _ _ ht => ht.ends_quiet (hlog ..)
        · rintro _ _ rfl
          exact hs
      · exact fun _ => hs
    · exact fun _ => hs
  · exact fun _ => hs

theorem Db.KycSound.ends_resolve (hs : s.KycSound) (call : ResolveCall) :
    call.handler.Ends (fun _ t => t.KycSound) s := by
  unfold Ends
  rcases call.run_handler_cases s with ⟨e, herror⟩ | ⟨existing, t, hfound, -, -, hinTx, hok⟩
  · rw [herror]
    exact hs
  · rw [hok]
    exact hs.decide hfound hinTx

end Endpoints

/-! ## Runs of the calls -/

/-- The calls of a run.  The last constructor stands for every other endpoint that keeps the
standing of the customers as it is. -/
inductive KycCall
  | createCustomer (isEmail : String → Bool) (js : Js CreateCustomer)
      (equalsInsensitive : String → String → Bool) (auth : Auth) (now : DateTime)
      (customerNumber : String) (body : CreateCustomer)
  | changeStatus (auth : Auth) (customerId : Id) (status : AccountStatus)
  | changeKyc (auth : Auth) (customerId : Id) (kycStatus : Option KycStatus)
  | updateCustomer (isEmail : String → Bool) (versionNo : Db → Id → Option ℤ) (auth : Auth)
      (customerId : Id) (expectedVersion : Option ℤ) (patch : CustomerProfilePatch)
  | resolve (call : ResolveCall)
  | commit (trimLower : String → String) (toText : ℚ → String) (auth : Auth)
      (customerNumber : CustomerRow → String) (resolutions : String → Option DuplicateResolution)
      (parsed : CustomerWorkbook) (now : DateTime)
  | other (p : Handler Unit) (h : p.Every Db.KeepsStanding)

def KycCall.handler : KycCall → Handler Unit
  | createCustomer isEmail js equalsInsensitive auth now customerNumber body => do
    let _ ← NexusEfos.createCustomer isEmail js equalsInsensitive auth now customerNumber body
  | changeStatus auth customerId status => do
    let _ ← changeCustomerStatus auth customerId status
  | changeKyc auth customerId kycStatus => NexusEfos.changeKyc auth customerId kycStatus
  | updateCustomer isEmail versionNo auth customerId expectedVersion patch => do
    let _ ← NexusEfos.updateCustomer isEmail versionNo auth customerId expectedVersion patch
  | resolve call => call.handler
  | commit trimLower toText auth customerNumber resolutions parsed now => do
    let _ ← commitCustomers trimLower toText auth customerNumber resolutions parsed now
  | other p _ => p

/-- A change of the identification does not take it from a customer who is verified or active. -/
def KycCall.KeepsIdentification : KycCall → Db → Prop
  | changeKyc _ customerId kycStatus, s =>
    ∀ status ∈ kycStatus, ∀ c ∈ s.find? .customer customerId,
      (c : Customer).status ∈ [AccountStatus.verified, .active] → status = .verified
  | _, _ => True

instance (call : KycCall) (s : Db) : Decidable (call.KeepsIdentification s) := by
  unfold KycCall.KeepsIdentification
  cases call <;> infer_instance

theorem KycCall.run_kycSound (call : KycCall) {s : Db} (hkeeps : call.KeepsIdentification s)
    (hs : s.KycSound) : (call.handler.run s).2.KycSound := by
  have hdiscard : ∀ {α : Type} {p : Handler α}, p.Ends (fun _ t => t.KycSound) s →
      (p >>= fun _ => (pure () : Handler Unit)).Ends (fun _ t => t.KycSound) s := fun hp =>
    hp.bind (fun _ _ ht => ht) fun _ _ ht => ht
  cases call with
  | createCustomer isEmail js equalsInsensitive auth now customerNumber body =>
    exact hdiscard (hs.ends_createCustomer isEmail js equalsInsensitive auth now customerNumber body)
  | changeStatus auth customerId status =>
    exact hdiscard (hs.ends_changeCustomerStatus auth customerId status)
  | changeKyc auth customerId kycStatus =>
    exact hs.ends_changeKyc auth customerId kycStatus fun status c hstatus hc =>
      hkeeps status hstatus c hc
  | updateCustomer isEmail versionNo auth customerId expectedVersion patch =>
    exact hdiscard (hs.ends_updateCustomer isEmail versionNo auth customerId expectedVersion patch)
  | resolve call => exact hs.ends_resolve call
  | commit trimLower toText auth customerNumber resolutions parsed now =>
    apply hdiscard
    exact hs.keepsStanding ((commitCustomers_keepsStanding trimLower toText auth customerNumber
      resolutions parsed now).run .refl .trans s)
  | other p h => exact hs.keepsStanding (h.run .refl .trans s)

/-- After every sequence of calls in which no identification of a customer who is verified or active
is taken back, every such customer has been identified. -/
theorem active_customers_identified (calls : List KycCall) (s : Db) (hs : s.KycSound)
    (hkeeps : AllAlong KycCall.handler KycCall.KeepsIdentification calls s) (customerId : Id)
    (c : Customer)
    (hc : (runAll (calls.map KycCall.handler) s).find? .customer customerId = some c)
    (hactive : c.status ∈ [AccountStatus.verified, .active]) : c.kycStatus = .verified := by
  have hend : (runAll (calls.map KycCall.handler) s).KycSound :=
    hkeeps.runAll (I := Db.KycSound) (fun call _ hA hI => call.run_kycSound hA hI) hs
  exact hend.identified customerId c hc hactive

/-- A customer is created, identified and made active, and a change of the name is approved. -/
def onboarding : List KycCall :=
  [.createCustomer (fun _ => true) ⟨fun _ _ => none, fun _ => ⟨none, ""⟩, id, toString⟩
      (fun _ _ => false) ⟨1, 1⟩ 5 "CUST-1"
      { fullName := "Ama Mensah", phone := "0244111222", branchId := 1 },
    .changeKyc ⟨1, 1⟩ 1 (some .verified), .changeStatus ⟨1, 1⟩ 1 .active,
    .updateCustomer (fun _ => true) (fun _ _ => none) ⟨1, 1⟩ 1 none { fullName := some "Ama Owusu" },
    .resolve { decision := .approve, auth := ⟨1, 2⟩, now := 6, requestId := 1 }]

/-- The customer at the end of that. -/
def onboarded : Customer :=
  ((runAll (onboarding.map KycCall.handler) Db.empty).find? .customer 1).get (by decide +kernel)

theorem active_customers_identified_onboarded : onboarded.kycStatus = .verified :=
  active_customers_identified onboarding Db.empty kycSound_empty (by decide +kernel) 1 onboarded
    (Option.some_get _).symm (by decide +kernel)

/-- The identification of the active customer is rejected. -/
theorem active_customer_rejected :
    ((runAll ((onboarding ++ [KycCall.changeKyc ⟨1, 1⟩ 1 (some .rejected)]).map KycCall.handler)
      Db.empty).find? .customer 1).map (fun c => ((c : Customer).status, c.kycStatus)) =
        some (.active, .rejected) := by
  decide +kernel

end NexusEfos
