/-
What an approval finds of its target.

The activation of a product, of a business rule or of a recurring journal, and the transfer of
an asset are asked for at one moment and approved at another.  In between others may withdraw
the product, retire the rule, suspend the template or dispose of the asset.  The approval does
not look at what has become of its target.  It finds the target as the request left it exactly
because nobody moved it meanwhile (`approval_respects_decisions`).
-/
import NexusEfos.Approvals.Requests
import NexusEfos.Ledger.RecurringJournals

namespace NexusEfos

/-! ## Targets and their states -/

def Asset.holder (a : Asset) : AssetHolder :=
  { employeeId := a.currentEmployeeId, departmentId := a.currentDepartmentId,
    branchId := a.currentBranchId }

/-- What an approval may change of a target: a status, and of an asset who has it. -/
inductive TargetState
  | product (status : ProductStatus)
  | businessRule (status : BusinessRuleStatus)
  | recurringJournal (status : RecurringJournalStatus)
  | asset (status : AssetStatus) (holder : AssetHolder)
  deriving DecidableEq

/-- The state in which a request leaves its target. -/
def TargetState.requested : TargetState → TargetState
  | product _ => product .pendingApproval
  | businessRule _ => businessRule .pendingApproval
  | recurringJournal _ => recurringJournal .pendingApproval
  | asset status holder => asset status holder

@[simp] theorem TargetState.requested_requested (v : TargetState) :
    v.requested.requested = v.requested := by
  cases v <;> rfl

namespace ApprovalTarget

/-- The table of a target. -/
def model : ApprovalTarget → Model
  | product _ => .product
  | businessRule _ => .businessRule
  | recurringJournal _ => .recurringJournal
  | asset _ => .asset

def id : ApprovalTarget → Id
  | product id | businessRule id | recurringJournal id | asset id => id

def stateIn (s : Db) : ApprovalTarget → Option TargetState
  | product id => (s.find? .product id).map fun p => .product p.status
  | businessRule id => (s.find? .businessRule id).map fun r => .businessRule r.status
  | recurringJournal id => (s.find? .recurringJournal id).map fun r => .recurringJournal r.status
  | asset id => (s.find? .asset id).map fun a => .asset a.status a.holder

/-- The tables of all targets. -/
def tables : List Model := [.product, .businessRule, .recurringJournal, .asset]

variable {s t : Db} {k k' : ApprovalTarget}

theorem model_mem_tables (k : ApprovalTarget) : k.model ∈ tables := by
  cases k <;> simp [model, tables]

theorem eq_of_model_id (h : k.model = k'.model) (h' : k.id = k'.id) : k = k' := by
  cases k <;> cases k' <;> cases h <;> cases h' <;> rfl

theorem stateIn_congr (h : t.find? k.model k.id = s.find? k.model k.id) :
    k.stateIn t = k.stateIn s := by
  cases k <;> exact congrArg (Option.map _) h

theorem stateIn_of_agree (h : s.Agree tables t) : k.stateIn t = k.stateIn s :=
  stateIn_congr (h.find? k.model_mem_tables k.id)

/-- A change of one target leaves the others alone. -/
theorem stateIn_modify_of_ne (h : k ≠ k') (s : Db) (f : Row k'.model → Row k'.model) :
    k.stateIn (s.modify k'.model k'.id f) = k.stateIn s := by
  apply stateIn_congr
  by_cases hmodel : k.model = k'.model
  · have hid : k.id ≠ k'.id := fun hid => h (eq_of_model_id hmodel hid)
    rw [hmodel, Db.find?_modify, if_neg hid]
  · exact Db.find?_modify_of_ne hmodel ..

end ApprovalTarget

/-! ## Steps -/

/-- What a decision moves, if it moves anything. -/
def Resolution.target (s : Db) (r : Resolution) : Option ApprovalTarget :=
  match r.request.type with
  | .productActivation => some (.product r.request.targetId)
  | .businessRuleActivation => some (.businessRule r.request.targetId)
  | .recurringJournalActivation => some (.recurringJournal r.request.targetId)
  | .assetTransfer =>
    if r.approved = true then
      (s.find? .assetTransfer r.request.targetId).map fun t => .asset t.assetId
    else none
  | .assetDisposal =>
    if r.approved = true then
      (s.find? .assetDisposal r.request.targetId).map fun d => .asset d.assetId
    else none
  | _ => none

namespace Access

/-- The statement decides about a request that is pending, and moves the target. -/
def Decides (lab : Access) (k : ApprovalTarget) (s : Db) : Prop :=
  ∃ r ∈ lab.resolves, (s.find? .approvalRequest r.requestId).map ApprovalRequest.status =
    some .pending ∧ r.target s = some k

instance (lab : Access) (k : ApprovalTarget) (s : Db) : Decidable (lab.Decides k s) :=
  inferInstanceAs (Decidable (∃ r ∈ lab.resolves,
    (s.find? .approvalRequest r.requestId).map ApprovalRequest.status = some .pending ∧
      r.target s = some k))

/-- The statement neither moves the target nor decides about it. -/
def LeavesTarget (k : ApprovalTarget) (lab : Access) (s : Db) : Prop :=
  lab.moves ≠ some k ∧ ¬ lab.Decides k s

instance (k : ApprovalTarget) (lab : Access) (s : Db) : Decidable (lab.LeavesTarget k s) :=
  inferInstanceAs (Decidable (lab.moves ≠ some k ∧ ¬ lab.Decides k s))

/-- The statement approves a request to activate or to transfer the target. -/
def Approves (k : ApprovalTarget) (lab : Access) (s : Db) : Prop :=
  ∃ r ∈ lab.resolves, r.approved = true ∧ r.request.type ≠ .assetDisposal ∧ r.target s = some k

instance (k : ApprovalTarget) (lab : Access) (s : Db) : Decidable (lab.Approves k s) :=
  inferInstanceAs (Decidable (∃ r ∈ lab.resolves, r.approved = true ∧
    r.request.type ≠ .assetDisposal ∧ r.target s = some k))

end Access

/-- What a statement does to the targets that are there. -/
def TargetStep (lab : Access) (s t : Db) : Prop :=
  ∀ k v, k.stateIn s = some v →
    (lab.files = some k → k.stateIn t = some v.requested) ∧
      (lab.files ≠ some k → lab.LeavesTarget k s → k.stateIn t = some v)

/-- The targets that are there stay as they are. -/
def Db.KeepsTargets (s t : Db) : Prop :=
  ∀ (k : ApprovalTarget) v, k.stateIn s = some v → k.stateIn t = some v

/-- A statement that leaves no target to a request and keeps all of them. -/
def KeepsTargets (lab : Access) (s t : Db) : Prop := lab.files = none ∧ s.KeepsTargets t

section Steps

variable {s t : Db} {lab : Access} {α : Type} {m : Model} {k : ApprovalTarget}

theorem KeepsTargets.of_agree (hlab : lab.files = none) (h : s.Agree ApprovalTarget.tables t) :
    KeepsTargets lab s t := by
  constructor
  · exact hlab
  · intro k v hv
    rw [ApprovalTarget.stateIn_of_agree h, hv]

theorem KeepsTargets.refl (hlab : lab.files = none) (s : Db) : KeepsTargets lab s s :=
  .of_agree hlab (.refl s)

theorem KeepsTargets.targetStep (h : KeepsTargets lab s t) : TargetStep lab s t := by
  intro k v hv
  constructor
  · intro hfiles
    rw [h.1] at hfiles
    exact absurd hfiles nofun
  · intro _ _
    exact h.2 k v hv

namespace TargetStep

theorem query (f : Db → α) : (NexusEfos.query f).EveryStep TargetStep := by
  constructor
  · intro s
    exact (KeepsTargets.refl rfl s).targetStep
  · intro _
    trivial

theorem create (hm : m ∉ ApprovalTarget.tables) (row : Row m) :
    (NexusEfos.create m row).EveryStep TargetStep := by
  constructor
  · intro s
    exact (KeepsTargets.of_agree rfl (Db.Agree.insert hm s row)).targetStep
  · intro _
    trivial

theorem of_updateAs {id : Id} {f : Row m → Row m}
    (hsome : ∀ s, TargetStep lab s (s.modify m id f))
    (hnone : ∀ s, s.find? m id = none → TargetStep lab s s) :
    (updateAs lab m id f).EveryStep TargetStep := by
  constructor
  · intro s
    cases hrow : s.find? m id with
    | some row => simpa only [hrow] using hsome s
    | none => simpa only [hrow] using hnone s hrow
  · intro _
    trivial

/-- The update of a row that is no target. -/
theorem updateOther (hm : m ∉ ApprovalTarget.tables) (hlab : lab.files = none) (id : Id)
    (f : Row m → Row m) : (updateAs lab m id f).EveryStep TargetStep := by
  apply of_updateAs
  · intro s
    exact (KeepsTargets.of_agree hlab (Db.Agree.modify hm s id f)).targetStep
  · intro s _
    exact (KeepsTargets.refl hlab s).targetStep

/-- A change that shows in no target's state. -/
theorem updateSame (hlab : lab.files = none) {f : Row k.model → Row k.model}
    (hf : ∀ s : Db, k.stateIn (s.modify k.model k.id f) = k.stateIn s) :
    (updateAs lab k.model k.id f).EveryStep TargetStep := by
  apply of_updateAs
  · intro s
    apply KeepsTargets.targetStep
    constructor
    · exact hlab
    · intro k' v hv
      by_cases hne : k' = k
      · rw [hne] at hv ⊢
        rw [hf, hv]
      · rw [ApprovalTarget.stateIn_modify_of_ne hne, hv]
  · intro s _
    exact (KeepsTargets.refl hlab s).targetStep

/-- A statement that says which target it moves. -/
theorem moved (hlab : lab.moves = some k) (hfiles : lab.files = none)
    (f : Row k.model → Row k.model) (s : Db) : TargetStep lab s (s.modify k.model k.id f) := by
  intro k' v hv
  constructor
  · intro hfiles'
    rw [hfiles] at hfiles'
    exact absurd hfiles' nofun
  · intro _ hleaves
    have hne : k' ≠ k := by
      intro heq
      exact hleaves.1 (heq ▸ hlab)
    rw [ApprovalTarget.stateIn_modify_of_ne hne, hv]

theorem updateMoved (hlab : lab.moves = some k) (hfiles : lab.files = none)
    (f : Row k.model → Row k.model) : (updateAs lab k.model k.id f).EveryStep TargetStep := by
  apply of_updateAs
  · exact moved hlab hfiles f
  · intro s _
    exact (KeepsTargets.refl hfiles s).targetStep

/-- The statement with which an endpoint leaves its target to a request. -/
theorem updateFiled (hlab : lab.files = some k) {f : Row k.model → Row k.model}
    (hf : ∀ (s : Db) v, k.stateIn s = some v →
      k.stateIn (s.modify k.model k.id f) = some v.requested) :
    (updateAs lab k.model k.id f).EveryStep TargetStep := by
  apply of_updateAs
  · intro s k' v hv
    constructor
    · intro hfiles
      rw [hlab] at hfiles
      cases hfiles
      exact hf s v hv
    · intro hfiles _
      have hne : k' ≠ k := by
        intro heq
        exact hfiles (heq ▸ hlab)
      rw [ApprovalTarget.stateIn_modify_of_ne hne, hv]
  · intro s hnone k' v hv
    constructor
    · intro hfiles
      rw [hlab] at hfiles
      cases hfiles
      cases k <;> simp_all [ApprovalTarget.stateIn, ApprovalTarget.model, ApprovalTarget.id]
    · intro _ _
      exact hv

end TargetStep

/-! ## Decisions -/

/-- The transfer of an asset moves the asset alone. -/
theorem stateIn_transferAsset {now : DateTime} {targetId : Id}
    (hk : (s.find? .assetTransfer targetId).map (fun t => ApprovalTarget.asset t.assetId) ≠ some k)
    (h : (transferAsset now targetId).run s = (.ok (), t)) : k.stateIn t = k.stateIn s := by
  obtain ⟨transfer, s₁, hread, h₁⟩ := Proc.run_bind_eq_ok h
  obtain ⟨hfound, hs₁⟩ := run_findUniqueOrThrow_eq_ok hread
  obtain ⟨asset, s₂, hupdate, h₂⟩ := Proc.run_bind_eq_ok h₁
  obtain ⟨-, -, -, hs₂⟩ := run_update_eq_ok hupdate
  have hne : k ≠ .asset transfer.assetId := by
    intro heq
    exact hk (by rw [hfound, heq]; rfl)
  have hagree : s₂.Agree ApprovalTarget.tables t := by
    rw [run_update_end_eq_ok h₂]
    exact Db.Agree.modify (by decide) _ _ _
  rw [ApprovalTarget.stateIn_of_agree hagree, hs₂, hs₁]
  exact ApprovalTarget.stateIn_modify_of_ne hne s _

/-- The disposal of an asset moves the asset alone. -/
theorem stateIn_disposeAsset {now : DateTime} {approvedById targetId : Id}
    (hk : (s.find? .assetDisposal targetId).map (fun d => ApprovalTarget.asset d.assetId) ≠ some k)
    (h : (disposeAsset now approvedById targetId).run s = (.ok (), t)) :
    k.stateIn t = k.stateIn s := by
  obtain ⟨disposal, s₁, hread, h₁⟩ := Proc.run_bind_eq_ok h
  obtain ⟨hfound, hs₁⟩ := run_findUniqueOrThrow_eq_ok hread
  obtain ⟨asset, s₂, hread', h₂⟩ := Proc.run_bind_eq_ok h₁
  obtain ⟨-, hs₂⟩ := run_findUniqueOrThrow_eq_ok hread'
  obtain ⟨journalId, s₃, hpost, h₃⟩ := Proc.run_bind_eq_ok h₂
  have hposted : s₂.Agree ApprovalTarget.tables s₃ := by
    have hquiet : Quiet ApprovalTarget.tables (postDisposal now approvedById disposal asset) :=
      Quiet.postDisposal (by decide) (by decide) _ _ _ _
    have hrun := hquiet.run s₂
    rwa [hpost] at hrun
  obtain ⟨row, s₄, hmark, h₄⟩ := Proc.run_bind_eq_ok h₃
  obtain ⟨-, -, -, hs₄⟩ := run_update_eq_ok hmark
  have hne : k ≠ .asset disposal.assetId := by
    intro heq
    exact hk (by rw [hfound, heq]; rfl)
  have hmarked : s₃.Agree ApprovalTarget.tables s₄ := by
    rw [hs₄]
    exact Db.Agree.modify (by decide) _ _ _
  rw [run_update_end_eq_ok h₄]
  rw [← hs₁, ← hs₂, ← ApprovalTarget.stateIn_of_agree (hposted.trans hmarked)]
  exact ApprovalTarget.stateIn_modify_of_ne hne s₄ _

/-- A decision moves nothing but its target. -/
theorem ResolveCall.stateIn_effect {call : ResolveCall} {existing : ApprovalRequest}
    (hk : Resolution.target s ⟨call.requestId, existing, call.decision = .approve, call.now⟩ ≠
      some k)
    (h : (call.effect existing).run s = (.ok (), t)) : k.stateIn t = k.stateIn s := by
  have hquiet : (∀ m ∈ approvalWrites existing.type, m ∉ ApprovalTarget.tables) →
      k.stateIn t = k.stateIn s := by
    intro hm
    have hrun := (call.quiet_effect hm).run s
    rw [h] at hrun
    exact ApprovalTarget.stateIn_of_agree hrun
  have hrow : ∀ k' : ApprovalTarget, k ≠ k' → ∀ f : Row k'.model → Row k'.model,
      t = s.modify k'.model k'.id f → k.stateIn t = k.stateIn s := by
    intro k' hne f ht
    rw [ht]
    exact ApprovalTarget.stateIn_modify_of_ne hne s f
  unfold effect at h
  unfold Resolution.target at hk
  cases htype : existing.type <;> rw [htype] at hquiet
  case productActivation | businessRuleActivation | recurringJournalActivation =>
    simp only [htype, ne_eq, Option.some.injEq] at hk
    cases hdecision : call.decision <;>
      simp only [hdecision, applyApproval, applyRejection, htype] at h <;>
      exact hrow _ (Ne.symm hk) _ (run_update_end_eq_ok h)
  case assetTransfer =>
    cases hdecision : call.decision with
    | approve =>
      simp only [hdecision, applyApproval, htype] at h
      simp only [htype, hdecision, decide_true, if_true] at hk
      exact stateIn_transferAsset hk h
    | reject =>
      simp only [hdecision, applyRejection, htype] at h
      rw [run_update_end_eq_ok h]
      exact ApprovalTarget.stateIn_of_agree (Db.Agree.modify (by decide) s _ _)
  case assetDisposal =>
    cases hdecision : call.decision with
    | approve =>
      simp only [hdecision, applyApproval, htype] at h
      simp only [htype, hdecision, decide_true, if_true] at hk
      exact stateIn_disposeAsset hk h
    | reject =>
      simp only [hdecision, applyRejection, htype] at h
      rw [run_update_end_eq_ok h]
      exact ApprovalTarget.stateIn_of_agree (Db.Agree.modify (by decide) s _ _)
  all_goals exact hquiet (by decide)

/-- The targets do not depend on the requests. -/
theorem Resolution.target_congr {r : Resolution} (h : s.Agree [.assetTransfer, .assetDisposal] t) :
    r.target t = r.target s := by
  unfold Resolution.target
  rw [h.find? (m := .assetTransfer) (by decide), h.find? (m := .assetDisposal) (by decide)]

theorem ResolveCall.targetStep {call : ResolveCall} {existing : ApprovalRequest}
    (h : (call.inTx existing).run s = (.ok (), t)) :
    TargetStep { resolves := some ⟨call.requestId, existing, call.decision = .approve, call.now⟩ }
      s t := by
  obtain ⟨row, w, hrow, hpending, heffect, ht⟩ := run_inTx_effect h
  intro k v hv
  constructor
  · intro hfiles
    exact absurd hfiles nofun
  · intro _ hleaves
    have htarget : Resolution.target (s.modify .approvalRequest call.requestId call.resolve)
        ⟨call.requestId, existing, call.decision = .approve, call.now⟩ ≠ some k := by
      rw [Resolution.target_congr (Db.Agree.modify (by decide) s _ _)]
      intro heq
      exact hleaves.2 ⟨_, rfl, by rw [hrow]; exact congrArg some hpending, heq⟩
    have hlogged : w.Agree ApprovalTarget.tables t := by
      rw [ht]
      exact Db.Agree.insert (by decide) w _
    have hclaimed : s.Agree ApprovalTarget.tables
        (s.modify .approvalRequest call.requestId call.resolve) := Db.Agree.modify (by decide) s _ _
    rw [ApprovalTarget.stateIn_of_agree hlogged, stateIn_effect htarget heffect,
      ApprovalTarget.stateIn_of_agree hclaimed, hv]

end Steps

/-! ## The endpoints -/

namespace TargetStep

variable {lab : Access}

theorem createJournal (hlab : lab.files = none) (journal : Journal) :
    (createJournalAs lab journal).EveryStep TargetStep := by
  constructor
  · intro s
    by_cases hlines : ∀ l ∈ journal.lines, (s.find? .gLAccount l.accountId).isSome
    · have hagree : s.Agree ApprovalTarget.tables (s.insert .journal journal) :=
        Db.Agree.insert (m := .journal) (by decide) s journal
      simpa only [if_pos hlines] using (KeepsTargets.of_agree hlab hagree).targetStep
    · simpa only [if_neg hlines] using (KeepsTargets.refl hlab s).targetStep
  · intro _
    trivial

theorem applyLinesById (accountById : Id → Option GLAccount) (lines : List LineInput) :
    (NexusEfos.applyLinesById accountById lines).EveryStep TargetStep := by
  apply Proc.EveryStep.forEach
  intro line _
  refine (Proc.EveryStep.orFail _ _).bind fun account => ?_
  exact (updateOther (by decide) rfl _ _).bind fun _ => trivial

theorem activateProduct (auth : Auth) (productId : Id) :
    (NexusEfos.activateProduct auth productId).EveryStep TargetStep := by
  refine (query _).bind fun found => (Proc.EveryStep.orFail _ _).bind fun product => ?_
  refine (Proc.EveryStep.require _ _).bind fun _ => (create (by decide) _).bind fun approval => ?_
  refine (updateFiled (k := .product productId) rfl ?_).bind fun _ => ?_
  · intro s v hv
    obtain ⟨p, hp, rfl⟩ := Option.map_eq_some_iff.mp hv
    simp [ApprovalTarget.stateIn, ApprovalTarget.model, ApprovalTarget.id, Db.find?_modify, hp,
      TargetState.requested]
  · exact (create (by decide) _).bind fun _ => trivial

theorem requestRuleActivation (auth : Auth) (ruleId : Id) :
    (NexusEfos.requestRuleActivation auth ruleId).EveryStep TargetStep := by
  refine (query _).bind fun found => (Proc.EveryStep.orFail _ _).bind fun rule => ?_
  refine (Proc.EveryStep.require _ _).bind fun _ => (create (by decide) _).bind fun approval => ?_
  refine (updateFiled (k := .businessRule ruleId) rfl ?_).bind fun _ => ?_
  · intro s v hv
    obtain ⟨r, hr, rfl⟩ := Option.map_eq_some_iff.mp hv
    simp [ApprovalTarget.stateIn, ApprovalTarget.model, ApprovalTarget.id, Db.find?_modify, hr,
      TargetState.requested]
  · exact (create (by decide) _).bind fun _ => trivial

theorem requestRecurringActivation (auth : Auth) (rjId : Id) :
    (NexusEfos.requestRecurringActivation auth rjId).EveryStep TargetStep := by
  refine (query _).bind fun found => (Proc.EveryStep.orFail _ _).bind fun rj => ?_
  refine (Proc.EveryStep.require _ _).bind fun _ => (create (by decide) _).bind fun approval => ?_
  refine (updateFiled (k := .recurringJournal rjId) rfl ?_).bind fun _ => trivial
  intro s v hv
  obtain ⟨r, hr, rfl⟩ := Option.map_eq_some_iff.mp hv
  simp [ApprovalTarget.stateIn, ApprovalTarget.model, ApprovalTarget.id, Db.find?_modify, hr,
    TargetState.requested]

/-- The request for a transfer leaves the asset as it is. -/
theorem requestAssetTransfer (auth : Auth) (body : AssetTransferBody) :
    (NexusEfos.requestAssetTransfer auth body).EveryStep TargetStep := by
  refine (Proc.EveryStep.require _ _).bind fun _ => (Proc.EveryStep.require _ _).bind fun _ => ?_
  refine (query _).bind fun found => (Proc.EveryStep.orFail _ _).bind fun asset => ?_
  refine (Proc.EveryStep.require _ _).bind fun _ => (create (by decide) _).bind fun transfer => ?_
  refine Proc.EveryStep.bind ⟨?_, fun _ => trivial⟩ fun request => ?_
  · intro s k v hv
    have hsame : ∀ row, k.stateIn (s.insert .approvalRequest row) = some v := by
      intro row
      rw [ApprovalTarget.stateIn_of_agree (Db.Agree.insert (by decide) s row), hv]
    constructor
    · intro hfiles
      cases hfiles
      obtain ⟨a, -, rfl⟩ := Option.map_eq_some_iff.mp hv
      exact hsame _
    · intro _ _
      exact hsame _
  · exact (create (by decide) _).bind fun _ => trivial

/-- Setting a status says what it moves. -/
theorem setStatus (k : ApprovalTarget) (institutionId : Row k.model → Id) (auth : Auth)
    (f : Row k.model → Row k.model) (notFound : String) (log : Option AuditLog) :
    (NexusEfos.setStatus k k.model institutionId auth k.id f notFound log).EveryStep TargetStep := by
  refine Proc.EveryStep.bind ⟨?_, fun _ => trivial⟩ fun updated => ?_
  · intro s
    have hsame : TargetStep { moves := some k } s s := (KeepsTargets.refl rfl s).targetStep
    cases hrow : s.find? k.model k.id with
    | none => simpa only [hrow] using hsame
    | some row =>
      by_cases hp : institutionId row = auth.institutionId
      · simpa only [hrow, hp, decide_true, if_true] using moved rfl rfl f s
      · simpa only [hrow, hp, decide_false, Bool.false_eq_true, if_false] using hsame
  · refine (Proc.EveryStep.require _ _).bind fun _ => ?_
    cases log with
    | some entry => exact (create (by decide) _).bind fun _ => trivial
    | none => trivial

theorem reactivateRecurring (auth : Auth) (now : DateTime) (rjId : Id) :
    (NexusEfos.reactivateRecurring auth now rjId).EveryStep TargetStep := by
  refine (query _).bind fun found => (Proc.EveryStep.orFail _ _).bind fun rj => ?_
  refine (Proc.EveryStep.require _ _).bind fun _ => ?_
  exact updateMoved (k := .recurringJournal rjId) rfl rfl _

theorem executeRecurring (now : DateTime) (rjId : Id) (rj : RecurringJournal) :
    (NexusEfos.executeRecurring now rjId rj).EveryStep TargetStep := by
  refine (query _).bind fun accountById => (query _).bind fun period => ?_
  dsimp only
  split
  · refine (createJournal rfl _).bind fun journal => (applyLinesById _ _).bind fun _ => ?_
    refine (create (by decide) _).bind fun _ => ?_
    refine (updateSame (k := .recurringJournal rjId) rfl ?_).bind fun _ => trivial
    intro s
    simp [ApprovalTarget.stateIn, ApprovalTarget.model, ApprovalTarget.id, Db.find?_modify,
      Option.map_map, Function.comp_def]
  · refine (updateMoved (k := .recurringJournal rjId) rfl rfl _).bind fun _ => ?_
    exact (create (by decide) _).bind fun _ => trivial

theorem runRecurringJournals (now : DateTime) :
    (NexusEfos.runRecurringJournals now).EveryStep TargetStep := by
  refine (query _).bind fun due => Proc.EveryStep.forEach ?_
  intro rj _
  exact executeRecurring now rj.1 rj.2

theorem allocateAsset (auth : Auth) (assetId : Id) (holder : AssetHolder) (notes : Option String) :
    (NexusEfos.allocateAsset auth assetId holder notes).EveryStep TargetStep := by
  refine (Proc.EveryStep.require _ _).bind fun _ => (query _).bind fun found => ?_
  refine (Proc.EveryStep.orFail _ _).bind fun asset => (Proc.EveryStep.require _ _).bind fun _ => ?_
  refine (query _).bind fun existingAllocation => (Proc.EveryStep.require _ _).bind fun _ => ?_
  refine (create (by decide) _).bind fun allocation => ?_
  refine (updateMoved (k := .asset assetId) rfl rfl _).bind fun _ => ?_
  exact (create (by decide) _).bind fun _ => trivial

theorem returnAsset (auth : Auth) (now : DateTime) (allocationId : Id) (returnCondition : String) :
    (NexusEfos.returnAsset auth now allocationId returnCondition).EveryStep TargetStep := by
  refine (Proc.EveryStep.require _ _).bind fun _ => (query _).bind fun found => ?_
  refine (Proc.EveryStep.orFail _ _).bind fun allocation => ?_
  refine (updateOther (by decide) rfl _ _).bind fun updated => ?_
  refine (updateMoved (k := .asset allocation.assetId) rfl rfl _).bind fun _ => ?_
  exact (create (by decide) _).bind fun _ => trivial

theorem verifyAsset (auth : Auth) (assetId : Id) (locationConfirmed custodianConfirmed : Bool)
    (condition : AssetCondition) :
    (NexusEfos.verifyAsset auth assetId locationConfirmed custodianConfirmed
      condition).EveryStep TargetStep := by
  refine (query _).bind fun found => (Proc.EveryStep.orFail _ _).bind fun _ => ?_
  refine (create (by decide) _).bind fun record => ?_
  have hend : (do
      let _ ← NexusEfos.create .auditLog
        { institutionId := auth.institutionId, userId := some auth.userId,
          action := "asset.verified", resource := "asset", resourceId := some assetId }
      return record : Handler Id).EveryStep TargetStep := (create (by decide) _).bind fun _ => trivial
  by_cases hmissing : condition = .missing
  · rw [if_pos hmissing]
    exact (updateMoved (k := .asset assetId) rfl rfl _).bind fun _ => hend
  · rw [if_neg hmissing]
    exact hend

/-- Depreciation shows in no target's state. -/
theorem processDepreciation (auth : Auth) (now : DateTime) (assetId : Id) (periodLabel : String) :
    (NexusEfos.processDepreciation auth now assetId periodLabel).EveryStep TargetStep := by
  refine (Proc.EveryStep.require _ _).bind fun _ => (query _).bind fun found => ?_
  refine (Proc.EveryStep.orFail _ _).bind fun asset => (Proc.EveryStep.require _ _).bind fun _ => ?_
  refine (query _).bind fun existing => (Proc.EveryStep.require _ _).bind fun _ => ?_
  refine (query _).bind fun monthsElapsed => (Proc.EveryStep.require _ _).bind fun _ => ?_
  refine Proc.EveryStep.bind ?_ fun journalId => ?_
  · refine (query _).bind fun mappings => ?_
    cases both (firstAccountByPurpose mappings "Depreciation Expense")
        (firstAccountByPurpose mappings "Accumulated Depreciation") with
    | none => trivial
    | some ids =>
      refine (query _).bind fun glPeriod => ?_
      dsimp only
      split
      · refine (query _).bind fun accountById => (createJournal rfl _).bind fun journal => ?_
        exact (applyLinesById _ _).bind fun _ => trivial
      · trivial
  · refine (create (by decide) _).bind fun entry => ?_
    refine (updateSame (k := .asset assetId) rfl ?_).bind fun _ => ?_
    · intro s
      simp [ApprovalTarget.stateIn, ApprovalTarget.model, ApprovalTarget.id, Db.find?_modify,
        Option.map_map, Function.comp_def, Asset.holder]
    · exact (create (by decide) _).bind fun _ => trivial

theorem requestDisposal (auth : Auth) (body : DisposalBody) :
    (NexusEfos.requestDisposal auth body).EveryStep TargetStep := by
  refine (Proc.EveryStep.require _ _).bind fun _ => (Proc.EveryStep.require _ _).bind fun _ => ?_
  refine (query _).bind fun found => (Proc.EveryStep.orFail _ _).bind fun asset => ?_
  refine (Proc.EveryStep.require _ _).bind fun _ => (create (by decide) _).bind fun disposal => ?_
  exact (create (by decide) _).bind fun _ => (create (by decide) _).bind fun _ => trivial

theorem resolve (call : ResolveCall) : call.handler.EveryStep TargetStep := by
  refine (query _).bind fun found => (Proc.EveryStep.orFail _ _).bind fun existing => ?_
  refine (Proc.EveryStep.require _ _).bind fun _ => (Proc.EveryStep.require _ _).bind fun _ => ?_
  apply Proc.EveryStep.transaction
  · intro s
    exact (KeepsTargets.refl rfl s).targetStep
  · intro s u t hrun
    exact ResolveCall.targetStep (Proc.run_interrupted_eq_ok hrun)

end TargetStep

/-! ## Any calls -/

/-- A call that may touch a target.  The last constructor stands for every other endpoint. -/
inductive ConfigurationCall
  | activateProduct (auth : Auth) (productId : Id)
  | withdrawProduct (auth : Auth) (productId : Id)
  | archiveProduct (auth : Auth) (productId : Id)
  | requestRuleActivation (auth : Auth) (ruleId : Id)
  | retireRule (auth : Auth) (ruleId : Id)
  | requestRecurringActivation (auth : Auth) (rjId : Id)
  | suspendRecurring (auth : Auth) (rjId : Id)
  | reactivateRecurring (auth : Auth) (now : DateTime) (rjId : Id)
  | runRecurringJournals (now : DateTime)
  | requestAssetTransfer (auth : Auth) (body : AssetTransferBody)
  | requestDisposal (auth : Auth) (body : DisposalBody)
  | allocateAsset (auth : Auth) (assetId : Id) (holder : AssetHolder) (notes : Option String)
  | returnAsset (auth : Auth) (now : DateTime) (allocationId : Id) (returnCondition : String)
  | verifyAsset (auth : Auth) (assetId : Id) (locationConfirmed custodianConfirmed : Bool)
      (condition : AssetCondition)
  | processDepreciation (auth : Auth) (now : DateTime) (assetId : Id) (periodLabel : String)
  | resolve (call : ResolveCall)
  | other (p : Handler Unit) (keeps : p.EveryStep KeepsTargets)

namespace ConfigurationCall

def handler : ConfigurationCall → Handler Unit
  | activateProduct auth productId => discard (NexusEfos.activateProduct auth productId)
  | withdrawProduct auth productId => NexusEfos.withdrawProduct auth productId
  | archiveProduct auth productId => NexusEfos.archiveProduct auth productId
  | requestRuleActivation auth ruleId => discard (NexusEfos.requestRuleActivation auth ruleId)
  | retireRule auth ruleId => NexusEfos.retireRule auth ruleId
  | requestRecurringActivation auth rjId => NexusEfos.requestRecurringActivation auth rjId
  | suspendRecurring auth rjId => NexusEfos.suspendRecurring auth rjId
  | reactivateRecurring auth now rjId => discard (NexusEfos.reactivateRecurring auth now rjId)
  | runRecurringJournals now => NexusEfos.runRecurringJournals now
  | requestAssetTransfer auth body => discard (NexusEfos.requestAssetTransfer auth body)
  | requestDisposal auth body => discard (NexusEfos.requestDisposal auth body)
  | allocateAsset auth assetId holder notes =>
    discard (NexusEfos.allocateAsset auth assetId holder notes)
  | returnAsset auth now allocationId returnCondition =>
    discard (NexusEfos.returnAsset auth now allocationId returnCondition)
  | verifyAsset auth assetId locationConfirmed custodianConfirmed condition =>
    discard (NexusEfos.verifyAsset auth assetId locationConfirmed custodianConfirmed condition)
  | processDepreciation auth now assetId periodLabel =>
    discard (NexusEfos.processDepreciation auth now assetId periodLabel)
  | resolve call => call.handler
  | other p _ => p

theorem everyStep (call : ConfigurationCall) : call.handler.EveryStep TargetStep := by
  cases call with
  | activateProduct auth productId =>
    exact (TargetStep.activateProduct auth productId).bind fun _ => trivial
  | withdrawProduct auth productId =>
    unfold handler NexusEfos.withdrawProduct
    exact TargetStep.setStatus (.product productId) _ _ _ _ _
  | archiveProduct auth productId =>
    unfold handler NexusEfos.archiveProduct
    exact TargetStep.setStatus (.product productId) _ _ _ _ _
  | requestRuleActivation auth ruleId =>
    exact (TargetStep.requestRuleActivation auth ruleId).bind fun _ => trivial
  | retireRule auth ruleId =>
    unfold handler NexusEfos.retireRule
    exact TargetStep.setStatus (.businessRule ruleId) _ _ _ _ _
  | requestRecurringActivation auth rjId => exact TargetStep.requestRecurringActivation auth rjId
  | suspendRecurring auth rjId =>
    unfold handler NexusEfos.suspendRecurring
    exact TargetStep.setStatus (.recurringJournal rjId) _ _ _ _ _
  | reactivateRecurring auth now rjId =>
    exact (TargetStep.reactivateRecurring auth now rjId).bind fun _ => trivial
  | runRecurringJournals now => exact TargetStep.runRecurringJournals now
  | requestAssetTransfer auth body =>
    exact (TargetStep.requestAssetTransfer auth body).bind fun _ => trivial
  | requestDisposal auth body => exact (TargetStep.requestDisposal auth body).bind fun _ => trivial
  | allocateAsset auth assetId holder notes =>
    exact (TargetStep.allocateAsset auth assetId holder notes).bind fun _ => trivial
  | returnAsset auth now allocationId returnCondition =>
    exact (TargetStep.returnAsset auth now allocationId returnCondition).bind fun _ => trivial
  | verifyAsset auth assetId locationConfirmed custodianConfirmed condition =>
    exact (TargetStep.verifyAsset auth assetId _ _ condition).bind fun _ => trivial
  | processDepreciation auth now assetId periodLabel =>
    exact (TargetStep.processDepreciation auth now assetId periodLabel).bind fun _ => trivial
  | resolve call => exact TargetStep.resolve call
  | other p keeps => exact keeps.imp fun _ _ _ h => h.targetStep

end ConfigurationCall

def configurationPool {ι : Type} (calls : ι → ConfigurationCall) (s : Db) :
    Pool ι Access Db Failure Unit :=
  ⟨fun i => (calls i).handler, s⟩

section Run

variable {ι : Type} [DecidableEq ι] {k : ApprovalTarget}

/-- What statements that leave a requested target alone do to it. -/
theorem stateIn_of_targetStep {lab : Access} {s t : Db} (h : TargetStep lab s t)
    (hleaves : lab.LeavesTarget k s) {v : TargetState} (hv : k.stateIn s = some v.requested) :
    k.stateIn t = some v.requested := by
  by_cases hfiles : lab.files = some k
  · have hmarked := (h k _ hv).1 hfiles
    rwa [TargetState.requested_requested] at hmarked
  · exact (h k _ hv).2 hfiles hleaves

/-- An endpoint leaves its target to a request, other calls go on, and an approval about the
target commits.  If none of the statements in between moves the target, or decides another
pending request about it, the approval changes the target only if it is as the endpoint left
it: pending, if it is a product, a rule or a template, and an asset with the status and the
holder it had. -/
theorem approval_respects_decisions (calls : ι → ConfigurationCall) (s : Db)
    (before between : List ι) (i j : ι) (k : ApprovalTarget)
    (hfiles : ((configurationPool calls s).run before).NextIs (fun lab _ => lab.files = some k) i)
    (hfound : (k.stateIn ((configurationPool calls s).run before).state).isSome)
    (hbetween : ((configurationPool calls s).run (before ++ [i])).Allowed
      (Access.LeavesTarget k) between) :
    ((configurationPool calls s).run (before ++ [i] ++ between)).NextIs (Access.Approves k) j →
      k.stateIn ((configurationPool calls s).run (before ++ [i] ++ between ++ [j])).state ≠
        k.stateIn ((configurationPool calls s).run (before ++ [i] ++ between)).state →
      k.stateIn ((configurationPool calls s).run (before ++ [i] ++ between)).state =
        (k.stateIn ((configurationPool calls s).run before).state).map TargetState.requested := by
  intro _ _
  have hstart : ∀ i, ((configurationPool calls s).threads i).EveryStep TargetStep :=
    fun i => (calls i).everyStep
  obtain ⟨v, hv⟩ := Option.isSome_iff_exists.mp hfound
  have hfiled : k.stateIn ((configurationPool calls s).run (before ++ [i])).state =
      some v.requested := by
    obtain ⟨lab, hlab, hstep⟩ :=
      Pool.step_everyStep_of_nextIs (Pool.run_everyStep hstart before i) hfiles
    rw [Pool.run_append]
    exact (hstep k v hv).1 hlab
  have hkept := Pool.run_rel (A := Access.LeavesTarget k)
    (R := fun t u => k.stateIn t = some v.requested → k.stateIn u = some v.requested)
    (fun _ h => h) (fun h h' hv => h' (h hv))
    (fun _ _ _ hstep hleaves => stateIn_of_targetStep hstep hleaves)
    (Pool.run_everyStep hstart (before ++ [i])) hbetween
  rw [Pool.run_append _ (before ++ [i]) between, hkept hfiled, hv]
  rfl

end Run

/-- A draft of a product. -/
def draftProduct : Db := Db.empty.insert .product { institutionId := 1 }

/-- One user asks for the activation of the product, another archives it, and a third approves
the activation. -/
def activationCalls : Fin 3 → ConfigurationCall
  | 0 => .activateProduct ⟨1, 1⟩ 1
  | 1 => .archiveProduct ⟨1, 2⟩ 1
  | 2 => .resolve { decision := .approve, auth := ⟨1, 3⟩, now := 1, requestId := 1 }

/-- The approval comes first. -/
theorem approval_respects_decisions_activationCalls :
    ApprovalTarget.stateIn
        ((configurationPool activationCalls draftProduct).run ([0, 0] ++ [0] ++ [0, 2])).state
        (.product 1) =
      (ApprovalTarget.stateIn ((configurationPool activationCalls draftProduct).run [0, 0]).state
        (.product 1)).map TargetState.requested :=
  approval_respects_decisions activationCalls draftProduct [0, 0] [0, 2] 0 2 (.product 1)
    (by decide +kernel) (by decide +kernel) (by decide +kernel) (by decide +kernel)
    (by decide +kernel)

/-- The product is archived first, and becomes active. -/
theorem archivedProduct_activated :
    ¬ ∀ (calls : Fin 3 → ConfigurationCall) (s : Db) (before between : List (Fin 3)) (i j : Fin 3)
      (k : ApprovalTarget),
      ((configurationPool calls s).run before).NextIs (fun lab _ => lab.files = some k) i →
      (k.stateIn ((configurationPool calls s).run before).state).isSome →
      ((configurationPool calls s).run (before ++ [i] ++ between)).NextIs (Access.Approves k) j →
      k.stateIn ((configurationPool calls s).run (before ++ [i] ++ between ++ [j])).state ≠
        k.stateIn ((configurationPool calls s).run (before ++ [i] ++ between)).state →
      k.stateIn ((configurationPool calls s).run (before ++ [i] ++ between)).state =
        (k.stateIn ((configurationPool calls s).run before).state).map TargetState.requested := by
  intro h
  have hkept := h activationCalls draftProduct [0, 0] [0, 1, 1, 2] 0 2 (.product 1)
    (by decide +kernel) (by decide +kernel) (by decide +kernel) (by decide +kernel)
  revert hkept
  decide +kernel

end NexusEfos
