/-
How often an asset leaves the books.

The approval of a disposal posts a journal that takes the cost and the accumulated depreciation
of the asset out of the accounts, and marks the asset as DISPOSED.  It does not look at whether
the asset is DISPOSED already; only the request for a disposal does.  Where every approval finds
the asset in use, one journal at most is posted, and what it has taken out is what the asset is
still worth in its record.
-/
import NexusEfos.Approvals.Requests
import NexusEfos.Ledger.PostedLines

namespace NexusEfos

open Proc

/-! ## A journal that takes an asset out of the books -/

/-- The accounts that are mapped for disposals. -/
def Db.disposalMapping (s : Db) (institutionId : Id) : String → Option Id :=
  accountIdByPurpose ((s.table .assetGLAccountMapping).entries.filter fun m =>
    m.2.institutionId = institutionId ∧ m.2.purpose ∈ disposalPurposes)

/-- The lines that take the depreciation and the cost of an asset out of their accounts. -/
def Asset.removalDrafts (a : Asset) (accountIds : String → Option Id) : List DraftLine :=
  [{ accountId := accountIds "Accumulated Depreciation", debit := toNumber a.accumulatedDepreciation,
     credit := 0 },
    { accountId := accountIds "Fixed Asset", debit := 0, credit := toNumber a.acquisitionCost }]

/-- The same once the accounts are known.  A line without an amount is left out. -/
def Asset.removalLines (a : Asset) (accumulatedId fixedAssetId : Id) : List LineInput :=
  let lines : List LineInput :=
    [{ accountId := accumulatedId, debit := toNumber a.accumulatedDepreciation, credit := 0 },
      { accountId := fixedAssetId, debit := 0, credit := toNumber a.acquisitionCost }]
  lines.filter fun l => decide (0 < l.debit) || decide (0 < l.credit)

/-- What the other lines of a disposal are about. -/
def resultPurposes : List String :=
  ["Cash/Bank (Disposal Proceeds)", "Gain on Disposal", "Loss on Disposal"]

/-- One journal has been posted that takes the asset out of the accounts: its lines for the
accumulated depreciation and for the cost have the amounts of the asset, and the others are about
what the disposal brought. -/
def Asset.TakenOut (a : Asset) (institutionId : Id) (s t : Db) : Prop :=
  ∃ accumulatedId fixedAssetId rest,
    s.disposalMapping institutionId "Accumulated Depreciation" = some accumulatedId ∧
    s.disposalMapping institutionId "Fixed Asset" = some fixedAssetId ∧
    (∀ l ∈ rest, ∃ purpose ∈ resultPurposes,
      s.disposalMapping institutionId purpose = some l.accountId) ∧
    s.MovedBy (a.removalLines accumulatedId fixedAssetId ++ rest) t ∧
    (t.find? .journal (s.nextId .journal)).map Journal.lines =
      some ((a.removalLines accumulatedId fixedAssetId ++ rest).map LineInput.stored)

section Postings

variable {s t : Db} {a : Asset} {institutionId : Id}

/-- The lines that say what a disposal brought. -/
def resultDrafts (proceeds gainLoss : ℚ) (accountIds : String → Option Id) : List DraftLine :=
  (if 0 < proceeds then
    [{ accountId := accountIds "Cash/Bank (Disposal Proceeds)", debit := proceeds, credit := 0 }]
  else []) ++
  if 0 < gainLoss then
    [{ accountId := accountIds "Gain on Disposal", debit := 0, credit := gainLoss }]
  else if gainLoss < 0 then
    [{ accountId := accountIds "Loss on Disposal", debit := -gainLoss, credit := 0 }]
  else []

theorem buildAssetDisposalLines_eq (a : Asset) (proceeds : ℚ) (accountIds : String → Option Id) :
    ∃ gainLoss, buildAssetDisposalLines (toNumber a.acquisitionCost)
        (toNumber a.accumulatedDepreciation) proceeds accountIds =
      (a.removalDrafts accountIds).filter DraftLine.hasAmount ++
        (resultDrafts proceeds gainLoss accountIds).filter DraftLine.hasAmount := by
  use round2 (proceeds - round2 (toNumber a.acquisitionCost - toNumber a.accumulatedDepreciation))
  rw [← List.filter_append]
  unfold buildAssetDisposalLines
  dsimp only
  rw [List.append_assoc]
  rfl

/-- The lines of a draft have an account each. -/
theorem accountId_of_mapM {drafts : List DraftLine} {lines : List LineInput}
    (h : drafts.mapM DraftLine.line? = some lines) {d : DraftLine} (hd : d ∈ drafts) :
    d.accountId = some d.amounts.accountId := by
  have hforall := forall₂_of_mapM h
  clear h
  induction hforall with
  | nil => exact absurd hd List.not_mem_nil
  | cons hline _ ih =>
    rcases List.mem_cons.mp hd with rfl | hd
    · obtain ⟨accountId, haccount, -⟩ := Option.map_eq_some_iff.mp hline
      rw [DraftLine.amounts, haccount]
      rfl
    · exact ih hd

theorem accountId_of_mem_resultDrafts {proceeds gainLoss : ℚ} {accountIds : String → Option Id}
    {d : DraftLine} (hd : d ∈ resultDrafts proceeds gainLoss accountIds) :
    ∃ purpose ∈ resultPurposes, d.accountId = accountIds purpose := by
  unfold resultDrafts at hd
  rcases List.mem_append.mp hd with hd | hd
  · split at hd
    · rw [List.mem_singleton.mp hd]
      exact ⟨_, by decide, rfl⟩
    · exact absurd hd List.not_mem_nil
  · split at hd
    · rw [List.mem_singleton.mp hd]
      exact ⟨_, by decide, rfl⟩
    · split at hd
      · rw [List.mem_singleton.mp hd]
        exact ⟨_, by decide, rfl⟩
      · exact absurd hd List.not_mem_nil

/-- The lines of the asset, once their accounts are known. -/
theorem amounts_removalDrafts {accountIds : String → Option Id} {accumulatedId fixedAssetId : Id}
    (haccumulated : accountIds "Accumulated Depreciation" = some accumulatedId)
    (hfixed : accountIds "Fixed Asset" = some fixedAssetId) :
    ((a.removalDrafts accountIds).filter DraftLine.hasAmount).map DraftLine.amounts =
      a.removalLines accumulatedId fixedAssetId := by
  unfold Asset.removalDrafts Asset.removalLines
  rw [haccumulated, hfixed]
  by_cases hdebit : 0 < toNumber a.accumulatedDepreciation
  · by_cases hcredit : 0 < toNumber a.acquisitionCost
    · simp [DraftLine.hasAmount, DraftLine.amounts, hdebit, hcredit]
    · simp [DraftLine.hasAmount, DraftLine.amounts, hdebit, hcredit]
  · by_cases hcredit : 0 < toNumber a.acquisitionCost
    · simp [DraftLine.hasAmount, DraftLine.amounts, hdebit, hcredit]
    · simp [DraftLine.hasAmount, hdebit, hcredit]

/-- The journal of a disposal is posted as a whole, or nothing happens. -/
theorem run_postDisposal_takesOut {now : DateTime} {approvedById : Id} {disposal : AssetDisposal}
    {r : Option Id} (h : (postDisposal now approvedById disposal a).run s = (.ok r, t)) :
    t = s ∨ a.TakenOut disposal.institutionId s t := by
  have hnone : (Except.ok none, s) = ((.ok r, t) : Except Failure _ × Db) → t = s :=
    fun hdone => (Prod.mk.inj hdone).2.symm
  have h₁ := run_query_bind h
  dsimp only at h₁
  split at h₁
  · next hmapped =>
    have h₂ := run_query_bind h₁
    split at h₂
    · rw [Bool.and_eq_true] at hmapped
      obtain ⟨fixedAssetId, hfixed⟩ := Option.isSome_iff_exists.mp hmapped.1
      obtain ⟨accumulatedId, haccumulated⟩ := Option.isSome_iff_exists.mp hmapped.2
      have hwhole : ∀ d ∈ buildAssetDisposalLines (toNumber a.acquisitionCost)
          (toNumber a.accumulatedDepreciation) (toNumber (disposal.saleProceeds.getD 0))
          (s.disposalMapping disposal.institutionId), d.IsWholeCent :=
        isWholeCent_disposalLines (wholeCent_toNumber a.acquisitionCost)
          (wholeCent_toNumber a.accumulatedDepreciation)
          (wholeCent_toNumber (disposal.saleProceeds.getD 0))
      have hmoved := run_postDraftLines_movedBy hwhole h₂
      rcases run_postDraftLines_eq_ok h₂ with
        ⟨-, -, ht⟩ | ⟨lines, hbalanced, hlines, -, -, ht⟩
      · exact .inl ht
      · right
        have hamounts := amounts_of_mapM hlines
        obtain ⟨gainLoss, hdrafts⟩ := buildAssetDisposalLines_eq a
          (toNumber (disposal.saleProceeds.getD 0)) (s.disposalMapping disposal.institutionId)
        have hsplit : lines = a.removalLines accumulatedId fixedAssetId ++
            ((resultDrafts (toNumber (disposal.saleProceeds.getD 0)) gainLoss
              (s.disposalMapping disposal.institutionId)).filter
                DraftLine.hasAmount).map DraftLine.amounts := by
          rw [← hamounts, ← amounts_removalDrafts haccumulated hfixed, ← List.map_append]
          exact congrArg _ hdrafts
        have hposted : postedDraftLines (buildAssetDisposalLines (toNumber a.acquisitionCost)
            (toNumber a.accumulatedDepreciation) (toNumber (disposal.saleProceeds.getD 0))
            (s.disposalMapping disposal.institutionId)) = lines :=
          (if_pos hbalanced).trans hamounts
        rw [hposted, hsplit] at hmoved
        refine ⟨accumulatedId, fixedAssetId, _, haccumulated, hfixed, ?_, hmoved, ?_⟩
        · intro l hl
          obtain ⟨d, hd, rfl⟩ := List.mem_map.mp hl
          obtain ⟨purpose, hpurpose, haccount⟩ :=
            accountId_of_mem_resultDrafts (List.mem_of_mem_filter hd)
          have hmem : d ∈ buildAssetDisposalLines (toNumber a.acquisitionCost)
              (toNumber a.accumulatedDepreciation) (toNumber (disposal.saleProceeds.getD 0))
              (s.disposalMapping disposal.institutionId) := by
            rw [hdrafts]
            exact List.mem_append_right _ hd
          exact ⟨purpose, hpurpose, haccount.symm.trans (accountId_of_mapM hlines hmem)⟩
        · rw [← hsplit, ht, Db.find?, Db.table_applyEffects (by decide)]
          show Option.map Journal.lines ((s.insert .journal _).find? .journal
            (s.nextId .journal)) = _
          rw [Db.find?_insert, if_pos rfl]
          rfl
    · exact .inl (hnone h₂)
  · exact .inl (hnone h₁)

theorem Asset.TakenOut.congr {s' t' : Db} (h : a.TakenOut institutionId s t)
    (hs : s'.Agree [.gLAccount, .journal, .assetGLAccountMapping] s)
    (ht : t.Agree [.gLAccount, .journal] t') : a.TakenOut institutionId s' t' := by
  obtain ⟨accumulatedId, fixedAssetId, rest, haccumulated, hfixed, hrest, hmoved, hjournal⟩ := h
  have haccounts : s'.disposalMapping institutionId = s.disposalMapping institutionId := by
    unfold Db.disposalMapping
    rw [hs .assetGLAccountMapping (by decide)]
  have hnext : s'.nextId .journal = s.nextId .journal := by
    unfold Db.nextId
    rw [hs .journal (by decide)]
  refine ⟨accumulatedId, fixedAssetId, rest, ?_, ?_, ?_, ?_, ?_⟩
  · rw [haccounts, haccumulated]
  · rw [haccounts, hfixed]
  · rw [haccounts]
    exact hrest
  · exact hmoved.congr (hs.mono (by decide)) (ht.mono (by decide))
  · rw [hnext, ht.find? (by decide), hjournal]

/-- What counts is what the asset has cost and what has been written off. -/
theorem Asset.TakenOut.of_eq {a' : Asset} (h : a.TakenOut institutionId s t)
    (hcost : a'.acquisitionCost = a.acquisitionCost)
    (haccumulated : a'.accumulatedDepreciation = a.accumulatedDepreciation) :
    a'.TakenOut institutionId s t := by
  unfold Asset.TakenOut Asset.removalLines at *
  rw [hcost, haccumulated]
  exact h

end Postings

/-! ## The operations -/

/-- A disposed asset stays disposed, with its cost and its depreciation. -/
def Asset.Frozen (a a' : Asset) : Prop :=
  a.status = .disposed → a'.status = .disposed ∧ a'.acquisitionCost = a.acquisitionCost ∧
    a'.accumulatedDepreciation = a.accumulatedDepreciation

theorem Asset.Frozen.refl (a : Asset) : a.Frozen a := fun h => ⟨h, rfl, rfl⟩

theorem Asset.Frozen.trans {a b c : Asset} (h : a.Frozen b) (h' : b.Frozen c) : a.Frozen c := by
  intro hdisposed
  obtain ⟨hb, hcost, haccumulated⟩ := h hdisposed
  obtain ⟨hc, hcost', haccumulated'⟩ := h' hb
  exact ⟨hc, hcost'.trans hcost, haccumulated'.trans haccumulated⟩

/-- No asset is lost, and the disposed ones stay as they are. -/
abbrev Db.KeepsDisposed (s t : Db) : Prop := s.KeepsRows .asset Asset.Frozen t

section Operations

variable {s t : Db}

theorem Db.KeepsDisposed.of_table_eq (h : t.table .asset = s.table .asset) : s.KeepsDisposed t :=
  Db.KeepsRows.of_table_eq Asset.Frozen.refl h

theorem Db.KeepsDisposed.trans {u : Db} (h : s.KeepsDisposed t) (h' : t.KeepsDisposed u) :
    s.KeepsDisposed u :=
  Db.KeepsRows.trans (fun _ _ _ h h' => h.trans h') h h'

/-- The update of one asset. -/
theorem Db.KeepsDisposed.modify {assetId : Id} {f : Asset → Asset}
    (hf : ∀ a, s.find? .asset assetId = some a → a.Frozen (f a)) :
    s.KeepsDisposed (s.modify .asset assetId f) := by
  intro id a ha
  rw [Db.find?_modify, ha]
  by_cases hid : id = assetId
  · rw [if_pos hid]
    exact ⟨f a, rfl, hf a (hid ▸ ha)⟩
  · rw [if_neg hid]
    exact ⟨a, rfl, .refl a⟩

theorem quiet_postDepreciation (auth : Auth) (now : DateTime) (asset : Asset) (periodLabel : String)
    (amount : ℚ) : Quiet [.asset] (postDepreciation auth now asset periodLabel amount) := by
  refine (Quiet.query _).bind fun mappings => ?_
  split
  · exact Quiet.pure _
  · refine (Quiet.query _).bind fun glPeriod => Quiet.ite ?_ (Quiet.pure _)
    refine (Quiet.query _).bind fun accountById => ?_
    refine Every.bind ?_ fun journal => ?_
    · exact (Writes.createJournalAs (List.mem_singleton_self _) _ _).every _ (Quiet.permits (by decide))
    · exact (Quiet.applyLinesById (by decide) _ _).bind fun _ => Quiet.pure _

/-- Depreciation stops at a disposed asset. -/
theorem keepsDisposed_processDepreciation (auth : Auth) (now : DateTime) (assetId : Id)
    (periodLabel : String) :
    s.KeepsDisposed ((processDepreciation auth now assetId periodLabel).run s).2 := by
  suffices h : (processDepreciation auth now assetId periodLabel).Ends
      (fun _ t => s.KeepsDisposed t) s from h
  have hsame : s.KeepsDisposed s := .of_table_eq rfl
  refine Ends.require (fun _ => ?_) fun _ => hsame
  refine ends_query (Ends.orFail (fun asset hasset => ?_) fun _ => hsame)
  refine Ends.require (fun hinUse => ?_) fun _ => hsame
  refine ends_query (Ends.require (fun _ => ?_) fun _ => hsame)
  refine ends_query (Ends.require (fun _ => ?_) fun _ => hsame)
  refine (quiet_postDepreciation _ _ _ _ _).ends (fun journalId t ht => ?_) fun _ t ht =>
    .of_table_eq (ht _ (by decide))
  have hfound := (Option.filter_eq_some_iff.mp hasset).1
  have hcreated : ∀ row, (t.insert .assetDepreciationEntry row).table .asset = s.table .asset := by
    intro row
    rw [Db.table_insert_of_ne (by decide), ht _ (by decide)]
  refine ends_create (ends_updateAs (fun a ha => ?_) fun _ => .of_table_eq (hcreated _))
  refine ends_create ?_
  show s.KeepsDisposed _
  refine Db.KeepsDisposed.trans (.of_table_eq (hcreated _)) (Db.KeepsDisposed.trans (.modify ?_)
    (.of_table_eq (Db.table_insert_of_ne (m := .auditLog) (by decide) _ _)))
  -- The asset was in use when it was read, and is the same still.
  intro a ha hdisposed
  rw [Db.find?, hcreated] at ha
  rw [← Option.some.inj (hfound.symm.trans ha)] at hdisposed
  exact absurd hdisposed hinUse

theorem quiet_requestDisposal (auth : Auth) (body : DisposalBody) :
    Quiet [.asset] (requestDisposal auth body) := by
  refine (Quiet.require _ _).bind fun _ => (Quiet.require _ _).bind fun _ => ?_
  refine (Quiet.query _).bind fun _ => (Quiet.orFail _ _).bind fun _ => ?_
  refine (Quiet.require _ _).bind fun _ => (Quiet.create (by decide) _).bind fun _ => ?_
  refine (Quiet.create (by decide) _).bind fun _ => ?_
  exact (Quiet.create (by decide) _).bind fun _ => Quiet.pure _

theorem quiet_requestAssetTransfer (auth : Auth) (body : AssetTransferBody) :
    Quiet [.asset] (requestAssetTransfer auth body) := by
  refine (Quiet.require _ _).bind fun _ => (Quiet.require _ _).bind fun _ => ?_
  refine (Quiet.query _).bind fun _ => (Quiet.orFail _ _).bind fun _ => ?_
  refine (Quiet.require _ _).bind fun _ => (Quiet.create (by decide) _).bind fun _ => ?_
  refine (Quiet.createAs (by decide) _ _).bind fun _ => ?_
  exact (Quiet.create (by decide) _).bind fun _ => Quiet.pure _

/-! ## Decisions -/

/-- A transfer that is approved changes who has the asset. -/
theorem keepsDisposed_transferAsset {now : DateTime} {targetId : Id} {u : Unit}
    (h : (transferAsset now targetId).run s = (.ok u, t)) : s.KeepsDisposed t := by
  obtain ⟨transfer, -, h₁⟩ := run_findUniqueOrThrow_bind_eq_ok h
  obtain ⟨asset, -, h₂⟩ := run_updateAs_bind_eq_ok h₁
  have hmoved : s.KeepsDisposed (s.modify .asset transfer.assetId fun a =>
      { a with currentEmployeeId := transfer.toEmployeeId,
               currentDepartmentId := transfer.toDepartmentId,
               currentBranchId := transfer.toBranchId }) :=
    .modify fun a _ hdisposed => ⟨hdisposed, rfl, rfl⟩
  rw [run_update_end_eq_ok h₂]
  exact hmoved.trans
    (.of_table_eq (Db.table_modify_of_ne (m := .assetTransfer) (by decide) _ _ _))

/-- A disposal that is approved: the asset is there, perhaps its journal is posted, and the asset
is disposed. -/
theorem run_disposeAsset_eq_ok {now : DateTime} {approvedById targetId : Id} {u : Unit}
    (h : (disposeAsset now approvedById targetId).run s = (.ok u, t)) :
    ∃ disposal a a', s.find? .assetDisposal targetId = some disposal ∧
      s.find? .asset disposal.assetId = some a ∧
      (∀ id, t.find? .asset id = if id = disposal.assetId then some a' else s.find? .asset id) ∧
      a'.status = .disposed ∧ a'.acquisitionCost = a.acquisitionCost ∧
      a'.accumulatedDepreciation = a.accumulatedDepreciation ∧
      (t.table .journal = s.table .journal ∨ a'.TakenOut disposal.institutionId s t) := by
  obtain ⟨disposal, hdisposal, h₁⟩ := run_findUniqueOrThrow_bind_eq_ok h
  obtain ⟨a, ha, h₂⟩ := run_findUniqueOrThrow_bind_eq_ok h₁
  obtain ⟨journalId, v, hpost, h₃⟩ := run_bind_eq_ok h₂
  obtain ⟨row, -, h₄⟩ := run_updateAs_bind_eq_ok h₃
  have ht := run_update_end_eq_ok h₄
  have hquiet : Quiet [.asset] (postDisposal now approvedById disposal a) :=
    Quiet.postDisposal (by decide) (by decide) _ _ _ _
  have hkept := hquiet.run s
  rw [hpost] at hkept
  have hmarked : ∀ watched : List Model, Model.assetDisposal ∉ watched → Model.asset ∉ watched →
      v.Agree watched t := by
    intro watched hdisposals hassets
    rw [ht]
    exact (Db.Agree.modify hdisposals _ _ _).trans (Db.Agree.modify hassets _ _ _)
  refine ⟨disposal, a, { a with status := .disposed, disposedAt := some disposal.disposalDate,
                                disposalReason := some disposal.reason }, hdisposal, ha, ?_,
    rfl, rfl, rfl, ?_⟩
  · intro id
    rw [ht, Db.find?_modify, Db.find?_modify_of_ne (by decide), hkept.find? (by decide)]
    by_cases hid : id = disposal.assetId
    · rw [if_pos hid, if_pos hid, hid, ha]
      rfl
    · rw [if_neg hid, if_neg hid]
  · rcases run_postDisposal_takesOut hpost with hsame | htaken
    · left
      rw [hmarked [.journal] (by decide) (by decide) _ (by decide), hsame]
    · right
      exact (htaken.congr (.refl s) (hmarked _ (by decide) (by decide))).of_eq rfl rfl

end Operations


/-! ## Sequences of operations -/

/-- The disposal that a call approves, if it approves one. -/
def ResolveCall.approvedDisposal (call : ResolveCall) (s : Db) : Option AssetDisposal :=
  match s.find? .approvalRequest call.requestId with
  | some r =>
    if r.type = .assetDisposal ∧ call.decision = .approve then s.find? .assetDisposal r.targetId
    else none
  | none => none

/-- Depreciation, requests, decisions, and any other operation that leaves the assets alone. -/
inductive AssetOperation
  | depreciate (auth : Auth) (now : DateTime) (assetId : Id) (periodLabel : String)
  | requestDisposal (auth : Auth) (body : DisposalBody)
  | requestTransfer (auth : Auth) (body : AssetTransferBody)
  | resolve (call : ResolveCall)
  | other (p : Handler Unit) (h : Quiet [.asset] p)

/-- A disposal whose journal has been posted, and the database before and after. -/
structure PostedDisposal where
  disposal : AssetDisposal
  before : Db
  after : Db

namespace AssetOperation

def handler : AssetOperation → Handler Unit
  | depreciate auth now assetId periodLabel => do
    let _ ← processDepreciation auth now assetId periodLabel
  | requestDisposal auth body => do let _ ← NexusEfos.requestDisposal auth body
  | requestTransfer auth body => do let _ ← requestAssetTransfer auth body
  | resolve call => call.handler
  | other p _ => p

/-- The disposal journal that an operation posts, if it posts one. -/
def posted (op : AssetOperation) (s : Db) : List PostedDisposal :=
  match op with
  | resolve call =>
    match call.approvedDisposal s with
    | some disposal =>
      if Db.Creates .journal s (call.handler.run s).2 then
        [⟨disposal, s, (call.handler.run s).2⟩]
      else []
    | none => []
  | _ => []

end AssetOperation

/-- The disposal journals of a sequence of operations. -/
def postedDisposals : List AssetOperation → Db → List PostedDisposal
  | [], _ => []
  | op :: ops, s => op.posted s ++ postedDisposals ops (op.handler.run s).2

/-- An approval of a disposal of the asset finds it in use. -/
def Access.SparesDisposed (assetId : Id) (lab : Access) (s : Db) : Prop :=
  ∀ r ∈ lab.resolves, r.approved = true → r.request.type = .assetDisposal →
    ∀ disposal ∈ s.find? .assetDisposal r.request.targetId, disposal.assetId = assetId →
      (s.find? .approvalRequest r.requestId).map ApprovalRequest.status = some .pending →
        ∀ a ∈ s.find? .asset assetId, a.status ≠ .disposed

instance (assetId : Id) (lab : Access) (s : Db) : Decidable (lab.SparesDisposed assetId s) :=
  inferInstanceAs (Decidable (∀ r ∈ lab.resolves, r.approved = true →
    r.request.type = .assetDisposal →
      ∀ disposal ∈ s.find? .assetDisposal r.request.targetId, disposal.assetId = assetId →
        (s.find? .approvalRequest r.requestId).map ApprovalRequest.status = some .pending →
          ∀ a ∈ s.find? .asset assetId, a.status ≠ .disposed))

section Sequences

variable {s t : Db} {assetId : Id}

/-- A decision posts no disposal journal and keeps the disposed assets, or it approves a disposal:
the asset is disposed then, it was in use if the condition was met, and a journal takes it out. -/
theorem ResolveCall.disposal_cases {call : ResolveCall}
    (hmeets : call.handler.Meets (Access.SparesDisposed assetId) s) :
    ((AssetOperation.resolve call).posted s = [] ∧ s.KeepsDisposed (call.handler.run s).2) ∨
      ∃ disposal a a' t, call.handler.run s = (.ok (), t) ∧
        (AssetOperation.resolve call).posted s = [⟨disposal, s, t⟩] ∧
        s.find? .asset disposal.assetId = some a ∧
        (disposal.assetId = assetId → a.status ≠ .disposed) ∧
        (∀ id, t.find? .asset id = if id = disposal.assetId then some a' else s.find? .asset id) ∧
        a'.status = .disposed ∧ a'.TakenOut disposal.institutionId s t := by
  have hnone : ∀ t, (call.handler.run s).2 = t → t.table .journal = s.table .journal →
      (AssetOperation.resolve call).posted s = [] := by
    intro t ht hjournal
    unfold AssetOperation.posted
    dsimp only
    split
    · rw [if_neg]
      rw [ht]
      exact Db.not_creates hjournal
    · rfl
  rcases call.run_handler_cases s with ⟨e, herror⟩ | ⟨existing, t, hexisting, hpending, -, hinTx, hok⟩
  · left
    rw [herror]
    exact ⟨hnone s (congrArg Prod.snd herror) rfl, .of_table_eq rfl⟩
  obtain ⟨row, v, -, -, heffect, ht⟩ := run_inTx_effect hinTx
  have hclaimed : ∀ watched : List Model, Model.approvalRequest ∉ watched →
      s.Agree watched (s.modify .approvalRequest call.requestId call.resolve) :=
    fun _ hw => Db.Agree.modify hw _ _ _
  have hlogged : ∀ watched : List Model, Model.auditLog ∉ watched → v.Agree watched t := by
    intro watched hw
    rw [ht]
    exact Db.Agree.insert hw _ _
  by_cases hdisposal : existing.type = .assetDisposal ∧ call.decision = .approve
  · obtain ⟨htype, hdecision⟩ := hdisposal
    unfold effect at heffect
    simp only [hdecision, applyApproval, htype] at heffect
    obtain ⟨disposal, a, a', hfound, ha, hassets, hdisposed, hcost, haccumulated, hjournal⟩ :=
      run_disposeAsset_eq_ok heffect
    rw [(hclaimed [.assetDisposal] (by decide)).find? (by decide)] at hfound
    rw [(hclaimed [.asset] (by decide)).find? (by decide)] at ha
    have happroved : call.approvedDisposal s = some disposal := by
      unfold approvedDisposal
      rw [hexisting]
      exact (if_pos ⟨htype, hdecision⟩).trans hfound
    have hafter : ∀ id, t.find? .asset id =
        if id = disposal.assetId then some a' else s.find? .asset id := by
      intro id
      rw [(hlogged [.asset] (by decide)).find? (by decide), hassets,
        (hclaimed [.asset] (by decide)).find? (by decide)]
    have hposted : (AssetOperation.resolve call).posted s =
        if Db.Creates .journal s t then [⟨disposal, s, t⟩] else [] := by
      unfold AssetOperation.posted
      simp only [happroved, hok]
    rcases hjournal with hjournal | htaken
    · left
      have hsame : t.table .journal = s.table .journal := by
        rw [hlogged [.journal] (by decide) _ (by decide), hjournal,
          hclaimed [.journal] (by decide) _ (by decide)]
      rw [hok]
      refine ⟨hnone t (congrArg Prod.snd hok) hsame, ?_⟩
      intro id b hb
      rw [hafter]
      by_cases hid : id = disposal.assetId
      · rw [hid, ha] at hb
        rw [if_pos hid, ← Option.some.inj hb]
        exact ⟨a', rfl, fun _ => ⟨hdisposed, hcost, haccumulated⟩⟩
      · rw [if_neg hid]
        exact ⟨b, hb, .refl b⟩
    · right
      have htaken' : a'.TakenOut disposal.institutionId s t :=
        htaken.congr (hclaimed _ (by decide)) (hlogged _ (by decide))
      have hcreates : Db.Creates .journal s t := by
        obtain ⟨_, _, _, _, _, _, _, hlines⟩ := htaken'
        obtain ⟨j, hj, -⟩ := Option.map_eq_some_iff.mp hlines
        exact Option.isSome_iff_exists.mpr ⟨j, hj⟩
      rw [if_pos hcreates] at hposted
      refine ⟨disposal, a, a', t, hok, hposted, ha, ?_, hafter, hdisposed, htaken'⟩
      intro hasset
      obtain ⟨request, hrequest, hspares⟩ := meets_handler hmeets hok
      rw [hexisting] at hrequest
      rw [← Option.some.inj hrequest] at hspares
      refine hspares _ rfl (decide_eq_true hdecision) htype disposal hfound hasset ?_ a (hasset ▸ ha)
      show (s.find? .approvalRequest call.requestId).map ApprovalRequest.status = _
      rw [hexisting]
      exact congrArg some hpending
  · left
    have happroved : call.approvedDisposal s = none := by
      unfold approvedDisposal
      rw [hexisting]
      exact if_neg hdisposal
    have hposted : (AssetOperation.resolve call).posted s = [] := by
      unfold AssetOperation.posted
      simp only [happroved]
    have heffects : (s.modify .approvalRequest call.requestId call.resolve).KeepsDisposed v := by
      have hquiet : (∀ m ∈ approvalWrites existing.type, m ∉ [Model.asset]) →
          (s.modify .approvalRequest call.requestId call.resolve).KeepsDisposed v := by
        intro hm
        have hrun := (call.quiet_effect hm).run
          (s.modify .approvalRequest call.requestId call.resolve)
        rw [heffect] at hrun
        exact .of_table_eq (hrun _ (by decide))
      unfold effect at heffect
      cases htype : existing.type <;> rw [htype] at hquiet
      case assetTransfer =>
        cases hdecision : call.decision with
        | approve =>
          simp only [hdecision, applyApproval, htype] at heffect
          exact keepsDisposed_transferAsset heffect
        | reject =>
          simp only [hdecision, applyRejection, htype] at heffect
          rw [run_update_end_eq_ok heffect]
          exact .of_table_eq (Db.table_modify_of_ne (m := .assetTransfer) (by decide) _ _ _)
      case assetDisposal =>
        cases hdecision : call.decision with
        | approve => exact absurd ⟨htype, hdecision⟩ hdisposal
        | reject =>
          simp only [hdecision, applyRejection, htype] at heffect
          rw [run_update_end_eq_ok heffect]
          exact .of_table_eq (Db.table_modify_of_ne (m := .assetDisposal) (by decide) _ _ _)
      all_goals exact hquiet (by decide)
    rw [hok]
    refine ⟨hposted, ?_⟩
    have hbefore : s.KeepsDisposed (s.modify .approvalRequest call.requestId call.resolve) :=
      .of_table_eq (hclaimed [.asset] (by decide) _ (by decide))
    exact (hbefore.trans heffects).trans (.of_table_eq (hlogged [.asset] (by decide) _ (by decide)))

/-- What an operation other than a decision does. -/
theorem AssetOperation.keepsDisposed {op : AssetOperation} (h : ∀ call, op ≠ resolve call) :
    op.posted s = [] ∧ s.KeepsDisposed (op.handler.run s).2 := by
  have hend : ∀ {α : Type} (p : Handler α), ((do let _ ← p : Handler Unit).run s).2 = (p.run s).2 := by
    intro α p
    rw [run_bind]
    cases p.run s with
    | mk r t => cases r <;> rfl
  have hquiet : ∀ {α : Type} {p : Handler α}, Quiet [.asset] p → s.KeepsDisposed (p.run s).2 :=
    fun hp => .of_table_eq (hp.run s _ (by decide))
  cases op with
  | depreciate auth now assetId periodLabel =>
    refine ⟨rfl, ?_⟩
    show s.KeepsDisposed ((do let _ ← processDepreciation auth now assetId periodLabel :
      Handler Unit).run s).2
    rw [hend]
    exact keepsDisposed_processDepreciation auth now assetId periodLabel
  | requestDisposal auth body =>
    exact ⟨rfl, hquiet ((quiet_requestDisposal auth body).bind fun _ => Quiet.pure _)⟩
  | requestTransfer auth body =>
    exact ⟨rfl, hquiet ((quiet_requestAssetTransfer auth body).bind fun _ => Quiet.pure _)⟩
  | resolve call => exact absurd rfl (h call)
  | other p hp => exact ⟨rfl, hquiet hp⟩

/-! ## Disposed once -/

/-- The journals that take the asset out of the books. -/
def disposalsOf (assetId : Id) (h : List PostedDisposal) : List PostedDisposal :=
  h.filter fun p => p.disposal.assetId = assetId

/-- None has been posted, or one has, and the asset is disposed with what it has taken out. -/
def Db.DisposedOnce (s : Db) (assetId : Id) (h : List PostedDisposal) : Prop :=
  disposalsOf assetId h = [] ∨ ∃ p a, disposalsOf assetId h = [p] ∧
    s.find? .asset assetId = some a ∧ a.status = .disposed ∧
      a.TakenOut p.disposal.institutionId p.before p.after

theorem Db.DisposedOnce.keep {h : List PostedDisposal} (hs : s.DisposedOnce assetId h)
    (hkeeps : s.KeepsDisposed t) : t.DisposedOnce assetId h := by
  rcases hs with hnone | ⟨p, a, hone, ha, hdisposed, htaken⟩
  · exact .inl hnone
  · obtain ⟨a', ha', hfrozen⟩ := hkeeps assetId a ha
    obtain ⟨hdisposed', hcost, haccumulated⟩ := hfrozen hdisposed
    exact .inr ⟨p, a', hone, ha', hdisposed', htaken.of_eq hcost haccumulated⟩

/-- One operation. -/
theorem Db.DisposedOnce.step {h : List PostedDisposal} (hs : s.DisposedOnce assetId h)
    {op : AssetOperation} (hmeets : op.handler.Meets (Access.SparesDisposed assetId) s) :
    (op.handler.run s).2.DisposedOnce assetId (h ++ op.posted s) := by
  by_cases hresolve : ∃ call, op = .resolve call
  · obtain ⟨call, rfl⟩ := hresolve
    rcases ResolveCall.disposal_cases hmeets with
      ⟨hposted, hkeeps⟩ | ⟨disposal, a, a', t, hok, hposted, ha, hinUse, hafter, hdisposed, htaken⟩
    · rw [hposted, List.append_nil]
      exact hs.keep hkeeps
    · have hrun : (((AssetOperation.resolve call).handler.run s)).2 = t := congrArg Prod.snd hok
      rw [hposted, hrun]
      by_cases hasset : disposal.assetId = assetId
      · right
        rcases hs with hnone | ⟨-, b, -, hb, hbefore, -⟩
        · refine ⟨⟨disposal, s, t⟩, a', ?_, ?_, hdisposed, htaken⟩
          · unfold disposalsOf at hnone ⊢
            rw [List.filter_append, hnone]
            simp [hasset]
          · rw [hafter, if_pos hasset.symm]
        · rw [hasset, hb] at ha
          rw [Option.some.inj ha] at hbefore
          exact absurd hbefore (hinUse hasset)
      · have hsame : disposalsOf assetId (h ++ [⟨disposal, s, t⟩]) = disposalsOf assetId h := by
          unfold disposalsOf
          rw [List.filter_append]
          simp [hasset]
        unfold Db.DisposedOnce
        rw [hsame, hafter, if_neg (Ne.symm hasset)]
        exact hs
  · obtain ⟨hposted, hkeeps⟩ := AssetOperation.keepsDisposed (s := s)
      fun call hop => hresolve ⟨call, hop⟩
    rw [hposted, List.append_nil]
    exact hs.keep hkeeps

/-- A sequence of operations. -/
theorem Db.DisposedOnce.run {ops : List AssetOperation} {h : List PostedDisposal}
    (hs : s.DisposedOnce assetId h)
    (hmeets : MeetsAll (Access.SparesDisposed assetId) (ops.map AssetOperation.handler) s) :
    (runAll (ops.map AssetOperation.handler) s).DisposedOnce assetId
      (h ++ postedDisposals ops s) := by
  induction ops generalizing s h with
  | nil =>
    unfold postedDisposals
    rw [List.append_nil]
    exact hs
  | cons op ops ih =>
    unfold postedDisposals
    rw [List.map_cons, runAll_cons, ← List.append_assoc]
    exact ih (hs.step hmeets.1) hmeets.2

end Sequences

/-! ## Two disposals of one asset -/

/-- An institution with an asset of 1000.00 in its books. -/
def assetLedger : Db :=
  let account := fun (name : String) (category : GLAccountCategory) (balance : Cents) =>
    ({ institutionId := 1, code := name, name, category, balance } : GLAccount)
  (disposalPurposes.foldl
    (fun s purpose => s.insert .assetGLAccountMapping ⟨1, purpose,
      if purpose = "Fixed Asset" then 1 else if purpose = "Accumulated Depreciation" then 2 else 3⟩)
    ((((Db.empty.insert .gLAccount (account "Fixed assets" .asset 100000)).insert
      .gLAccount (account "Depreciation" .asset 0)).insert
      .gLAccount (account "Result" .expense 0)).insert
      .financialPeriod { institutionId := 1, startDate := 0, endDate := 10 })).insert .asset
        { institutionId := 1, assetCode := "A-1", acquisitionCost := 100000, usefulLifeMonths := 10,
          depreciationMethod := .straightLine }

/-- A disposal that is asked for, and its approval. -/
def writeOffRequest : AssetOperation :=
  .requestDisposal ⟨1, 1⟩
    { assetId := 1, disposalType := .writeOff, disposalDate := 5, saleProceeds := none,
      reason := "Broken" }

def writeOffApproval (requestId : Id) : AssetOperation :=
  .resolve { decision := .approve, auth := ⟨1, 2⟩, now := 5, requestId }

end NexusEfos
