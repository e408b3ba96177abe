/-
What a disposal brings, in its record and in the books.

The record of a disposal has the result that was worked out when it was asked for; the journal has
the result at the time of the approval.  The two agree while the asset is not depreciated in between.
Of the accounts that the journal needs only two are checked before it is written: if another one is
not mapped, the approval fails.
-/
import NexusEfos.Approvals.DraftPostings
import NexusEfos.Operations.Depreciation

namespace NexusEfos

open Proc DoubleEntry

/-! ## The lines of a disposal -/

theorem mapM_line?_eq_none {drafts : List DraftLine} {d : DraftLine} (hd : d ∈ drafts)
    (hnone : d.accountId = none) : drafts.mapM DraftLine.line? = none := by
  cases h : drafts.mapM DraftLine.line? with
  | none => rfl
  | some lines =>
    rw [accountId_of_mapM h hd] at hnone
    exact absurd hnone nofun

/-- What a disposal brings over the book value of the asset. -/
def disposalResult (acquisitionCost accumulatedDepreciation saleProceeds : ℚ) : ℚ :=
  saleProceeds - acquisitionCost + accumulatedDepreciation

/-- The accounts are mapped that are needed for the proceeds and the result. -/
def DisposalMapped (accountIds : String → Option Id) (saleProceeds result : ℚ) : Prop :=
  (0 < saleProceeds → (accountIds "Cash/Bank (Disposal Proceeds)").isSome) ∧
    (0 < result → (accountIds "Gain on Disposal").isSome) ∧
      (result < 0 → (accountIds "Loss on Disposal").isSome)

instance (accountIds : String → Option Id) (saleProceeds result : ℚ) :
    Decidable (DisposalMapped accountIds saleProceeds result) :=
  inferInstanceAs (Decidable (_ ∧ _ ∧ _))

section Lines

variable {cost accumulated proceeds : ℚ} {accountIds : String → Option Id}

/-- The lines, with those that have no amount. -/
def allDisposalLines (cost accumulated proceeds : ℚ) (accountIds : String → Option Id) :
    List DraftLine :=
  [{ accountId := accountIds "Accumulated Depreciation", debit := accumulated, credit := 0 },
    { accountId := accountIds "Fixed Asset", debit := 0, credit := cost }] ++
    resultDrafts proceeds (disposalResult cost accumulated proceeds) accountIds

theorem buildAssetDisposalLines_all (hcost : WholeCent cost) (haccumulated : WholeCent accumulated)
    (hproceeds : WholeCent proceeds) :
    buildAssetDisposalLines cost accumulated proceeds accountIds =
      (allDisposalLines cost accumulated proceeds accountIds).filter DraftLine.hasAmount := by
  have hresult : round2 (proceeds - round2 (cost - accumulated)) =
      disposalResult cost accumulated proceeds := by
    rw [(hcost.sub haccumulated).round2_eq, (hproceeds.sub (hcost.sub haccumulated)).round2_eq]
    unfold disposalResult
    ring
  unfold buildAssetDisposalLines
  dsimp only
  rw [hresult, List.append_assoc]
  rfl

theorem sum_resultDrafts (hproceeds : 0 ≤ proceeds) (result : ℚ) :
    ((resultDrafts proceeds result accountIds).map DraftLine.debit).sum =
        proceeds + max 0 (-result) ∧
      ((resultDrafts proceeds result accountIds).map DraftLine.credit).sum = max 0 result := by
  have hcash : ((if 0 < proceeds then
      [({ accountId := accountIds "Cash/Bank (Disposal Proceeds)", debit := proceeds,
          credit := 0 } : DraftLine)] else []).map DraftLine.debit).sum = proceeds ∧
    ((if 0 < proceeds then
      [({ accountId := accountIds "Cash/Bank (Disposal Proceeds)", debit := proceeds,
          credit := 0 } : DraftLine)] else []).map DraftLine.credit).sum = 0 := by
    split
    · exact ⟨List.sum_singleton, List.sum_singleton⟩
    · next hnone => exact ⟨le_antisymm hproceeds (not_lt.mp hnone), rfl⟩
  unfold resultDrafts
  rw [List.map_append, List.map_append, List.sum_append, List.sum_append, hcash.1, hcash.2]
  rcases lt_trichotomy result 0 with hloss | hzero | hgain
  · rw [if_neg hloss.not_gt, if_pos hloss, max_eq_right (by linarith), max_eq_left hloss.le]
    simp
  · rw [hzero]
    simp
  · rw [if_pos hgain, max_eq_left (by linarith), max_eq_right hgain.le]
    simp

theorem nonneg_of_mem_resultDrafts {result : ℚ} {d : DraftLine}
    (hd : d ∈ resultDrafts proceeds result accountIds) : 0 ≤ d.debit ∧ 0 ≤ d.credit := by
  unfold resultDrafts at hd
  rcases List.mem_append.mp hd with hd | hd
  · split at hd
    · next hpos =>
      rw [List.mem_singleton.mp hd]
      exact ⟨hpos.le, le_rfl⟩
    · exact absurd hd List.not_mem_nil
  · split at hd
    · next hgain =>
      rw [List.mem_singleton.mp hd]
      exact ⟨le_rfl, hgain.le⟩
    · split at hd
      · next hloss =>
        rw [List.mem_singleton.mp hd]
        exact ⟨neg_nonneg.mpr hloss.le, le_rfl⟩
      · exact absurd hd List.not_mem_nil

/-- The lines balance if they are about anything. -/
theorem isBalanced_disposalLines (hcost : 0 ≤ cost ∧ WholeCent cost)
    (haccumulated : 0 ≤ accumulated ∧ WholeCent accumulated)
    (hproceeds : 0 ≤ proceeds ∧ WholeCent proceeds) :
    isBalanced ((buildAssetDisposalLines cost accumulated proceeds accountIds).map
        DraftLine.amounts) = true ↔ 0 < cost ∨ 0 < accumulated ∨ 0 < proceeds := by
  have hnonneg : ∀ d ∈ allDisposalLines cost accumulated proceeds accountIds,
      0 ≤ d.debit ∧ 0 ≤ d.credit := by
    intro d hd
    rcases List.mem_append.mp hd with hd | hd
    · rcases List.mem_cons.mp hd with rfl | hd
      · exact ⟨haccumulated.1, le_rfl⟩
      · rw [List.mem_singleton.mp hd]
        exact ⟨le_rfl, hcost.1⟩
    · exact nonneg_of_mem_resultDrafts hd
  obtain ⟨hdebits, hcredits⟩ := sum_filter_hasAmount hnonneg
  obtain ⟨hresultDebits, hresultCredits⟩ :=
    @sum_resultDrafts proceeds accountIds hproceeds.1 (disposalResult cost accumulated proceeds)
  have hallDebits : ((allDisposalLines cost accumulated proceeds accountIds).map
      DraftLine.debit).sum =
        accumulated + proceeds + max 0 (-disposalResult cost accumulated proceeds) := by
    unfold allDisposalLines
    rw [List.map_append, List.sum_append, hresultDebits]
    simp only [List.map_cons, List.map_nil, List.sum_cons, List.sum_nil]
    ring
  have hallCredits : ((allDisposalLines cost accumulated proceeds accountIds).map
      DraftLine.credit).sum = cost + max 0 (disposalResult cost accumulated proceeds) := by
    unfold allDisposalLines
    rw [List.map_append, List.sum_append, hresultCredits]
    simp only [List.map_cons, List.map_nil, List.sum_cons, List.sum_nil]
    ring
  have hsame : accumulated + proceeds + max 0 (-disposalResult cost accumulated proceeds) =
      cost + max 0 (disposalResult cost accumulated proceeds) := by
    have hdef : disposalResult cost accumulated proceeds = proceeds - cost + accumulated := rfl
    rcases le_total 0 (disposalResult cost accumulated proceeds) with hgain | hloss
    · rw [max_eq_left (by linarith), max_eq_right hgain, hdef]
      ring
    · rw [max_eq_right (by linarith), max_eq_left hloss, hdef]
      ring
  have hresult : WholeCent (disposalResult cost accumulated proceeds) :=
    (hproceeds.2.sub hcost.2).add haccumulated.2
  have htotal : WholeCent (cost + max 0 (disposalResult cost accumulated proceeds)) :=
    hcost.2.add (WholeCent.zero.max hresult)
  rw [isBalanced_amounts, buildAssetDisposalLines_all hcost.2 haccumulated.2 hproceeds.2, hdebits,
    hcredits, hallDebits, hallCredits, hsame, htotal.round2_eq, and_iff_right rfl]
  have hgain := le_max_left 0 (disposalResult cost accumulated proceeds)
  have hloss := le_max_left 0 (-disposalResult cost accumulated proceeds)
  have hcost₀ := hcost.1
  have haccumulated₀ := haccumulated.1
  have hproceeds₀ := hproceeds.1
  constructor
  · intro hpos
    by_contra hnone
    rw [not_or, not_or, not_lt, not_lt, not_lt] at hnone
    obtain ⟨hnoCost, hnoAccumulated, hnoProceeds⟩ := hnone
    have hzero : disposalResult cost accumulated proceeds = 0 := by
      unfold disposalResult
      linarith
    rw [hzero, max_self] at hpos
    linarith
  · rintro (hpos | hpos | hpos)
    · linarith
    · linarith
    · linarith

/-- The accounts of the lines, if the two of the asset are mapped. -/
theorem mapped_disposalLines (hcost : WholeCent cost) (haccumulated : WholeCent accumulated)
    (hproceeds : WholeCent proceeds) (hfixed : (accountIds "Fixed Asset").isSome)
    (hdepreciation : (accountIds "Accumulated Depreciation").isSome) :
    (∀ d ∈ buildAssetDisposalLines cost accumulated proceeds accountIds, d.accountId.isSome) ↔
      DisposalMapped accountIds proceeds (disposalResult cost accumulated proceeds) := by
  rw [buildAssetDisposalLines_all hcost haccumulated hproceeds]
  have hline : ∀ d ∈ allDisposalLines cost accumulated proceeds accountIds, d.hasAmount = true →
      (∀ d ∈ (allDisposalLines cost accumulated proceeds accountIds).filter DraftLine.hasAmount,
        d.accountId.isSome) → d.accountId.isSome :=
    fun d hd hamount hall => hall d (List.mem_filter.mpr ⟨hd, hamount⟩)
  constructor
  · intro hall
    refine ⟨fun hpos => ?_, fun hgain => ?_, fun hloss => ?_⟩
    · refine hline ⟨_, proceeds, 0⟩ ?_ (by simp [DraftLine.hasAmount, hpos]) hall
      refine List.mem_append_right _ (List.mem_append_left _ ?_)
      rw [if_pos hpos]
      exact List.mem_singleton_self _
    · refine hline ⟨_, 0, disposalResult cost accumulated proceeds⟩ ?_
        (by simp [DraftLine.hasAmount, hgain]) hall
      refine List.mem_append_right _ (List.mem_append_right _ ?_)
      rw [if_pos hgain]
      exact List.mem_singleton_self _
    · refine hline ⟨_, -disposalResult cost accumulated proceeds, 0⟩ ?_
        (by simp [DraftLine.hasAmount, hloss]) hall
      refine List.mem_append_right _ (List.mem_append_right _ ?_)
      rw [if_neg hloss.not_gt, if_pos hloss]
      exact List.mem_singleton_self _
  · rintro ⟨hcash, hgainAccount, hlossAccount⟩ d hd
    rcases List.mem_append.mp (List.mem_filter.mp hd).1 with hd | hd
    · rcases List.mem_cons.mp hd with rfl | hd
      · exact hdepreciation
      · rw [List.mem_singleton.mp hd]
        exact hfixed
    · unfold resultDrafts at hd
      rcases List.mem_append.mp hd with hd | hd
      · split at hd
        · next hpos =>
          rw [List.mem_singleton.mp hd]
          exact hcash hpos
        · exact absurd hd List.not_mem_nil
      · split at hd
        · next hgain =>
          rw [List.mem_singleton.mp hd]
          exact hgainAccount hgain
        · split at hd
          · next hloss =>
            rw [List.mem_singleton.mp hd]
            exact hlossAccount hloss
          · exact absurd hd List.not_mem_nil

theorem mem_disposalLines {d : DraftLine}
    (hd : d ∈ buildAssetDisposalLines cost accumulated proceeds accountIds) :
    ∃ purpose, d.accountId = accountIds purpose := by
  unfold buildAssetDisposalLines at hd
  dsimp only at hd
  rw [List.append_assoc] at hd
  rcases List.mem_append.mp (List.mem_filter.mp hd).1 with hd | hd
  · rcases List.mem_cons.mp hd with rfl | hd
    · exact ⟨_, rfl⟩
    · rw [List.mem_singleton.mp hd]
      exact ⟨_, rfl⟩
  · obtain ⟨purpose, -, hpurpose⟩ := accountId_of_mem_resultDrafts hd
    exact ⟨purpose, hpurpose⟩

end Lines

/-! ## The approval -/

/-- The lines that the approval of a disposal lays out. -/
def AssetDisposal.drafts (d : AssetDisposal) (a : Asset) (accountIds : String → Option Id) :
    List DraftLine :=
  buildAssetDisposalLines (toNumber a.acquisitionCost) (toNumber a.accumulatedDepreciation)
    (toNumber (d.saleProceeds.getD 0)) accountIds

/-- The result of a disposal, from what the asset is worth. -/
def AssetDisposal.result (d : AssetDisposal) (a : Asset) : ℚ :=
  disposalResult (toNumber a.acquisitionCost) (toNumber a.accumulatedDepreciation)
    (toNumber (d.saleProceeds.getD 0))

/-- None of the amounts of a disposal is negative. -/
structure AssetDisposal.Nonneg (d : AssetDisposal) (a : Asset) : Prop where
  acquisitionCost : 0 ≤ a.acquisitionCost
  accumulatedDepreciation : 0 ≤ a.accumulatedDepreciation
  saleProceeds : 0 ≤ d.saleProceeds.getD 0

namespace Db

/-- The accounts that are mapped for assets are there. -/
def AssetMappingSound (s : Db) : Prop :=
  ∀ m ∈ (s.table .assetGLAccountMapping).values, (s.find? .gLAccount m.glAccountId).isSome

instance (s : Db) : Decidable s.AssetMappingSound :=
  inferInstanceAs (Decidable (∀ m ∈ (s.table .assetGLAccountMapping).values,
    (s.find? .gLAccount m.glAccountId).isSome))

theorem AssetMappingSound.found {s : Db} (h : s.AssetMappingSound) {institutionId : Id}
    {purpose : String} {accountId : Id}
    (hmapped : s.disposalMapping institutionId purpose = some accountId) :
    (s.find? .gLAccount accountId).isSome := by
  obtain ⟨m, hm, rfl⟩ := Option.map_eq_some_iff.mp hmapped
  have hmem := List.mem_reverse.mp (List.mem_of_find?_eq_some hm)
  exact h m.2 (List.mem_map_of_mem (List.mem_filter.mp hmem).1)

/-- The approval of a disposal goes on to a journal: the two accounts of the asset are mapped, the
period is open, and there is anything to book. -/
def DisposalPosts (s : Db) (now : DateTime) (d : AssetDisposal) (a : Asset) : Prop :=
  ((s.disposalMapping d.institutionId "Fixed Asset").isSome ∧
      (s.disposalMapping d.institutionId "Accumulated Depreciation").isSome) ∧
    s.Postable d.institutionId now ∧
      (0 < a.acquisitionCost ∨ 0 < a.accumulatedDepreciation ∨ 0 < d.saleProceeds.getD 0)

/-- The other accounts that the journal needs are mapped. -/
def DisposalCovered (s : Db) (d : AssetDisposal) (a : Asset) : Prop :=
  DisposalMapped (s.disposalMapping d.institutionId) (toNumber (d.saleProceeds.getD 0)) (d.result a)

end Db

section Approval

variable {s : Db} {now : DateTime} {approvedById : Id} {d : AssetDisposal} {a : Asset}

theorem AssetDisposal.Nonneg.isBalanced_iff (h : d.Nonneg a) (accountIds : String → Option Id) :
    isBalanced ((d.drafts a accountIds).map DraftLine.amounts) = true ↔
      0 < a.acquisitionCost ∨ 0 < a.accumulatedDepreciation ∨ 0 < d.saleProceeds.getD 0 := by
  have hbalanced := @isBalanced_disposalLines (toNumber a.acquisitionCost)
    (toNumber a.accumulatedDepreciation) (toNumber (d.saleProceeds.getD 0)) accountIds
    ⟨toNumber_nonneg.mpr h.acquisitionCost, wholeCent_toNumber _⟩
    ⟨toNumber_nonneg.mpr h.accumulatedDepreciation, wholeCent_toNumber _⟩
    ⟨toNumber_nonneg.mpr h.saleProceeds, wholeCent_toNumber _⟩
  rw [toNumber_pos, toNumber_pos, toNumber_pos] at hbalanced
  exact hbalanced

theorem run_postDisposal (s : Db) (now : DateTime) (approvedById : Id) (d : AssetDisposal)
    (a : Asset) :
    (postDisposal now approvedById d a).run s =
      if ((s.disposalMapping d.institutionId "Fixed Asset").isSome &&
          (s.disposalMapping d.institutionId "Accumulated Depreciation").isSome) = true ∧
            s.Postable d.institutionId now then
        (postDraftLines d.institutionId approvedById now now
          ("Asset disposal — " ++ a.assetCode ++ " — " ++ d.disposalType.text)
          (d.drafts a (s.disposalMapping d.institutionId))).run s
      else (.ok none, s) := by
  unfold postDisposal
  show (if ((s.disposalMapping d.institutionId "Fixed Asset").isSome &&
    (s.disposalMapping d.institutionId "Accumulated Depreciation").isSome) = true then _ else _ :
      Handler (Option Id)).run s = _
  by_cases hmapped : ((s.disposalMapping d.institutionId "Fixed Asset").isSome &&
      (s.disposalMapping d.institutionId "Accumulated Depreciation").isSome) = true
  · rw [if_pos hmapped]
    show (if s.Postable d.institutionId now then _ else _ : Handler (Option Id)).run s = _
    by_cases hpostable : s.Postable d.institutionId now
    · rw [if_pos hpostable, if_pos ⟨hmapped, hpostable⟩]
      rfl
    · rw [if_neg hpostable, if_neg fun h => hpostable h.2]
      rfl
  · rw [if_neg hmapped, if_neg fun h => hmapped h.1]
    rfl

theorem run_postDisposal_none (h : d.Nonneg a) (hposts : ¬ s.DisposalPosts now d a) :
    (postDisposal now approvedById d a).run s = (.ok none, s) := by
  rw [run_postDisposal]
  split
  · next hready =>
    apply run_postDraftLines_unbalanced
    rw [← Bool.not_eq_true, h.isBalanced_iff]
    intro hany
    exact hposts ⟨Bool.and_eq_true_iff.mp hready.1, hready.2, hany⟩
  · rfl

theorem run_postDisposal_fails (h : d.Nonneg a) (hposts : s.DisposalPosts now d a)
    (hcovered : ¬ s.DisposalCovered d a) :
    (postDisposal now approvedById d a).run s = (.error validationError, s) := by
  obtain ⟨⟨hfixed, hdepreciation⟩, hpostable, hany⟩ := hposts
  have hmapped := @mapped_disposalLines (toNumber a.acquisitionCost)
    (toNumber a.accumulatedDepreciation) (toNumber (d.saleProceeds.getD 0)) _ (wholeCent_toNumber _)
    (wholeCent_toNumber _) (wholeCent_toNumber _) hfixed hdepreciation
  have hunmapped := mt hmapped.mp hcovered
  rw [not_forall] at hunmapped
  obtain ⟨line, hline⟩ := hunmapped
  rw [Classical.not_imp, Option.not_isSome_iff_eq_none] at hline
  rw [run_postDisposal, if_pos ⟨Bool.and_eq_true_iff.mpr ⟨hfixed, hdepreciation⟩, hpostable⟩]
  exact run_postDraftLines_unmapped ((h.isBalanced_iff _).mpr hany)
    (mapM_line?_eq_none hline.1 hline.2)

/-- The journal of a disposal. -/
def disposalJournal (s : Db) (now : DateTime) (approvedById : Id) (d : AssetDisposal) (a : Asset) :
    Journal :=
  draftJournal d.institutionId approvedById now now
    ("Asset disposal — " ++ a.assetCode ++ " — " ++ d.disposalType.text)
    ((d.drafts a (s.disposalMapping d.institutionId)).map DraftLine.amounts)

theorem run_postDisposal_posts (h : d.Nonneg a) (hposts : s.DisposalPosts now d a)
    (hcovered : s.DisposalCovered d a) (hsound : s.AssetMappingSound) :
    ∃ t, (postDisposal now approvedById d a).run s = (.ok (some (s.nextId .journal)), t) ∧
      t.find? .journal (s.nextId .journal) = some (disposalJournal s now approvedById d a) ∧
        s.Agree [.asset, .assetDisposal] t := by
  obtain ⟨⟨hfixed, hdepreciation⟩, hpostable, hany⟩ := hposts
  have hmapped := (mapped_disposalLines (wholeCent_toNumber _) (wholeCent_toNumber _)
    (wholeCent_toNumber _) hfixed hdepreciation).mpr hcovered
  change ∀ line ∈ d.drafts a (s.disposalMapping d.institutionId), line.accountId.isSome at hmapped
  have hfound : ∀ l ∈ (d.drafts a (s.disposalMapping d.institutionId)).map DraftLine.amounts,
      (s.find? .gLAccount l.accountId).isSome := by
    intro l hl
    obtain ⟨line, hline, rfl⟩ := List.mem_map.mp hl
    obtain ⟨accountId, haccount⟩ := Option.isSome_iff_exists.mp (hmapped line hline)
    obtain ⟨purpose, hpurpose⟩ := mem_disposalLines hline
    unfold DraftLine.amounts
    rw [haccount]
    exact hsound.found (hpurpose.symm.trans haccount)
  have hpost := @run_postDraftLines s _ _ d.institutionId approvedById now now
    ("Asset disposal — " ++ a.assetCode ++ " — " ++ d.disposalType.text)
    ((h.isBalanced_iff _).mpr hany) (mapM_line? hmapped) hfound
  have hrun := (run_postDisposal s now approvedById d a).trans
    ((if_pos ⟨Bool.and_eq_true_iff.mpr ⟨hfixed, hdepreciation⟩, hpostable⟩).trans hpost)
  have hkept : Quiet [.asset, .assetDisposal] (postDisposal now approvedById d a) :=
    Quiet.postDisposal (by decide) (by decide) _ _ _ _
  have hagree := hkept.run s
  rw [hrun] at hagree
  refine ⟨_, hrun, ?_, hagree⟩
  rw [Db.find?_applyEffects_of_ne (by decide), Db.find?_insert, if_pos rfl]
  rfl

/-- The journal that a disposal names is its own, balances, and has the result of the record. -/
def Db.DisposalBooked (s : Db) (disposalId : Id) : Prop :=
  ∀ d ∈ s.find? .assetDisposal disposalId, ∀ a ∈ s.find? .asset d.assetId, ∀ id ∈ d.journalId,
    ∃ journal ∈ s.find? .journal id, ∃ accountIds,
      journal.lines = ((d.drafts a accountIds).map DraftLine.amounts).map LineInput.stored ∧
        Balanced (journal.lines.map JournalLine.entry) ∧ toNumber d.gainLoss = d.result a

variable {t : Db} {disposalId : Id}

/-- The approval, once it is known what the posting does. -/
theorem run_disposeAsset (hd : s.find? .assetDisposal disposalId = some d)
    (ha : s.find? .asset d.assetId = some a) {journalId : Option Id}
    (hpost : (postDisposal now approvedById d a).run s = (.ok journalId, t))
    (hkept : s.Agree [.asset, .assetDisposal] t) :
    ∃ v, (disposeAsset now approvedById disposalId).run s = (.ok (), v) ∧
      v.find? .assetDisposal disposalId =
        some { d with status := .approved, approvedById := some approvedById,
                      journalId := journalId } ∧
      v.find? .asset d.assetId =
        some { a with status := .disposed, disposedAt := some d.disposalDate,
                      disposalReason := some d.reason } ∧
      v.table .journal = t.table .journal := by
  let approve := fun d : AssetDisposal =>
    { d with status := .approved, approvedById := some approvedById, journalId }
  let dispose := fun a : Asset =>
    { a with status := .disposed, disposedAt := some d.disposalDate,
             disposalReason := some d.reason }
  have hdisposal := run_findUniqueOrThrow .assetDisposal disposalId s
  have hasset := run_findUniqueOrThrow .asset d.assetId s
  rw [hd] at hdisposal
  rw [ha] at hasset
  have happroved := run_update .assetDisposal disposalId approve t
  rw [hkept.find? (by decide), hd] at happroved
  have hdisposed := run_update .asset d.assetId dispose (t.modify .assetDisposal disposalId approve)
  rw [Db.find?_modify_of_ne (by decide), hkept.find? (by decide), ha] at hdisposed
  refine ⟨(t.modify .assetDisposal disposalId approve).modify .asset d.assetId dispose, ?_, ?_, ?_, ?_⟩
  · unfold disposeAsset
    rw [run_bind_ok hdisposal, run_bind_ok hasset, run_bind_ok hpost, run_bind_ok happroved]
    exact run_bind_ok hdisposed _
  · rw [Db.find?_modify_of_ne (by decide), Db.find?_modify, if_pos rfl, hkept.find? (by decide), hd]
    rfl
  · rw [Db.find?_modify, if_pos rfl, Db.find?_modify_of_ne (by decide), hkept.find? (by decide), ha]
    rfl
  · rw [Db.table_modify_of_ne (by decide), Db.table_modify_of_ne (by decide)]

/-- When the approval of a disposal succeeds with a journal that agrees with the record. -/
theorem run_disposeAsset_booked_iff (hd : s.find? .assetDisposal disposalId = some d)
    (ha : s.find? .asset d.assetId = some a) (hnonneg : d.Nonneg a) (hsound : s.AssetMappingSound) :
    (∃ v, (disposeAsset now approvedById disposalId).run s = (.ok (), v) ∧
        v.DisposalBooked disposalId) ↔
      (s.DisposalPosts now d a → s.DisposalCovered d a ∧ toNumber d.gainLoss = d.result a) := by
  by_cases hposts : s.DisposalPosts now d a
  · by_cases hcovered : s.DisposalCovered d a
    · obtain ⟨t, hpost, hjournal, hkept⟩ :=
        @run_postDisposal_posts s now approvedById d a hnonneg hposts hcovered hsound
      obtain ⟨v, hrun, hd', ha', hjournals⟩ := run_disposeAsset hd ha hpost hkept
      have hfound : v.find? .journal (s.nextId .journal) =
          some (disposalJournal s now approvedById d a) := by
        rw [Db.find?, hjournals]
        exact hjournal
      constructor
      · rintro ⟨v', hrun', hbooked⟩ -
        obtain rfl : v = v' := (Prod.mk.inj (hrun.symm.trans hrun')).2
        obtain ⟨journal, -, accountIds, -, -, hresult⟩ := hbooked _ hd' _ ha' _ rfl
        exact ⟨hcovered, hresult⟩
      · intro hagrees
        refine ⟨v, hrun, ?_⟩
        intro d' hfoundDisposal a' hfoundAsset id hid
        obtain rfl := Option.some.inj (hd'.symm.trans hfoundDisposal)
        obtain rfl := Option.some.inj (ha'.symm.trans hfoundAsset)
        obtain rfl := Option.some.inj hid
        refine ⟨_, hfound, s.disposalMapping d.institutionId, rfl, ?_, (hagrees hposts).2⟩
        apply balanced_stored_of_isBalanced
        · intro l hl
          obtain ⟨line, hline, rfl⟩ := List.mem_map.mp hl
          exact isWholeCent_disposalLines (wholeCent_toNumber _) (wholeCent_toNumber _)
            (wholeCent_toNumber _) line hline
        · exact (hnonneg.isBalanced_iff _).mpr hposts.2.2
    · have hfails : (disposeAsset now approvedById disposalId).run s = (.error validationError, s) := by
        have hdisposal := run_findUniqueOrThrow .assetDisposal disposalId s
        have hasset := run_findUniqueOrThrow .asset d.assetId s
        rw [hd] at hdisposal
        rw [ha] at hasset
        unfold disposeAsset
        rw [run_bind_ok hdisposal, run_bind_ok hasset, run_bind,
          run_postDisposal_fails hnonneg hposts hcovered]
      constructor
      · rintro ⟨v, hrun, -⟩
        rw [hfails] at hrun
        exact absurd (congrArg Prod.fst hrun) (by simp)
      · intro hagrees
        exact absurd (hagrees hposts).1 hcovered
  · refine iff_of_true ?_ fun h => absurd h hposts
    obtain ⟨v, hrun, hd', -, -⟩ :=
      run_disposeAsset hd ha (run_postDisposal_none hnonneg hposts) (.refl s)
    refine ⟨v, hrun, ?_⟩
    intro d' hfoundDisposal a' _ id hid
    obtain rfl := Option.some.inj (hd'.symm.trans hfoundDisposal)
    exact absurd hid (by simp)

end Approval

/-! ## From the request to the approval -/

/-- What the approval of a disposal reads in it. -/
def AssetDisposal.stated (d : AssetDisposal) : Id × Id × Option Cents × Cents :=
  (d.institutionId, d.assetId, d.saleProceeds, d.gainLoss)

/-- An asset as it was, or worth less. -/
structure Asset.Ages (a a' : Asset) : Prop where
  cost : a'.acquisitionCost = a.acquisitionCost
  accumulated : a.accumulatedDepreciation ≤ a'.accumulatedDepreciation

/-- The assets may be depreciated, and the disposals are kept. -/
structure Db.Ages (s t : Db) : Prop where
  assets : s.KeepsRows .asset Asset.Ages t
  disposals : s.KeepsRows .assetDisposal (fun d d' : AssetDisposal => d'.stated = d.stated) t

section Requests

variable {s t u : Db}

theorem Asset.Ages.refl (a : Asset) : a.Ages a := ⟨rfl, le_rfl⟩

theorem Asset.Ages.trans {a b c : Asset} (h : a.Ages b) (h' : b.Ages c) : a.Ages c :=
  ⟨h'.cost.trans h.cost, h.accumulated.trans h'.accumulated⟩

theorem Db.Ages.of_agree (h : s.Agree [.asset, .assetDisposal] t) : s.Ages t where
  assets := KeepsRows.of_table_eq (m := .asset) Asset.Ages.refl (h .asset (by decide))
  disposals := KeepsRows.of_table_eq (m := .assetDisposal)
    (R := fun d d' : AssetDisposal => d'.stated = d.stated) (fun _ => rfl)
    (h .assetDisposal (by decide))

theorem Db.Ages.trans (h : s.Ages t) (h' : t.Ages u) : s.Ages u where
  assets := h.assets.trans (fun _ _ _ => Asset.Ages.trans) h'.assets
  disposals := h.disposals.trans (fun _ _ _ hfirst hsecond => hsecond.trans hfirst) h'.disposals

/-- What is done while a disposal waits. -/
inductive DisposalActivity
  | depreciate (auth : Auth) (now : DateTime) (assetId : Id) (periodLabel : String)
  | other (p : Handler Unit) (h : p.Every Db.Ages)

def DisposalActivity.handler : DisposalActivity → Handler Unit
  | depreciate auth now assetId periodLabel => do
    let _ ← processDepreciation auth now assetId periodLabel
  | other p _ => p

theorem writes_processDepreciation (auth : Auth) (now : DateTime) (assetId : Id)
    (periodLabel : String) :
    Writes [.journal, .gLAccount, .assetDepreciationEntry, .asset, .auditLog]
      (processDepreciation auth now assetId periodLabel) := by
  refine (Writes.require _ _).bind fun _ => (Writes.query _).bind fun found => ?_
  refine (Writes.orFail _ _).bind fun asset => (Writes.require _ _).bind fun _ => ?_
  refine (Writes.query _).bind fun existing => (Writes.require _ _).bind fun _ => ?_
  refine (Writes.query _).bind fun monthsElapsed => (Writes.require _ _).bind fun _ => ?_
  refine ((writes_postDepreciation _ _ _ _ _).mono (by decide)).bind fun journalId => ?_
  refine (Writes.create (by decide) _).bind fun entry => ?_
  refine (Writes.update (by decide) _ _).bind fun _ => ?_
  exact (Writes.create (by decide) _).bind fun _ => Writes.pure _

theorem Db.Depreciates.ages {assetId : Id} {a : Asset} (h : s.Depreciates assetId a t) :
    s.KeepsRows .asset Asset.Ages t := by
  intro id b hb
  rw [h.assets id]
  by_cases hid : id = assetId
  · rw [if_pos hid]
    rw [hid, h.found] at hb
    obtain rfl := Option.some.inj hb
    have hamount : 0 ≤ ofNumber (s.nextDepreciation assetId a) := ofNumber_nonneg h.amount.le
    exact ⟨_, rfl, rfl, le_add_of_nonneg_right hamount⟩
  · rw [if_neg hid]
    exact ⟨b, hb, .refl b⟩

theorem DepreciationEnd.ages {assetId : Id} {r : Except Failure Id}
    (h : DepreciationEnd s assetId r t) : s.KeepsRows .asset Asset.Ages t := by
  cases h with
  | failed hkept _ =>
    exact Db.KeepsRows.of_table_eq (m := .asset) Asset.Ages.refl (hkept .asset (by decide))
  | posted a hposted => exact hposted.ages

theorem DisposalActivity.ages (activity : DisposalActivity) (s : Db) :
    s.Ages (activity.handler.run s).2 := by
  cases activity with
  | depreciate auth now assetId periodLabel =>
    have hwrites := writes_processDepreciation auth now assetId periodLabel
    have hdisposals : s.Agree [.assetDisposal] _ := (hwrites.quiet (by decide)).run s
    have hassets := (processDepreciation_ends s auth now assetId periodLabel).ages
    have hrun : ((depreciate auth now assetId periodLabel).handler.run s).2 =
        ((processDepreciation auth now assetId periodLabel).run s).2 := by
      unfold handler
      rw [run_bind]
      cases (processDepreciation auth now assetId periodLabel).run s with
      | mk r t => cases r <;> rfl
    rw [hrun]
    exact ⟨hassets, Db.KeepsRows.of_table_eq (m := .assetDisposal)
      (R := fun d d' : AssetDisposal => d'.stated = d.stated) (fun _ => rfl)
      (hdisposals .assetDisposal (by decide))⟩
  | other p h => exact Every.run (fun s => Db.Ages.of_agree (.refl s)) Db.Ages.trans h s

/-- Whatever is done while a disposal waits. -/
theorem ages_runAll (activities : List DisposalActivity) (s : Db) :
    s.Ages (runAll (activities.map DisposalActivity.handler) s) := by
  induction activities generalizing s with
  | nil => exact .of_agree (.refl s)
  | cons activity activities ih => exact (activity.ages s).trans (ih _)

/-- The figures of a request: the result that it stores is the result at that time. -/
theorem toNumber_gainLoss {x : ℚ} (hx : 0 ≤ x) (a : Asset) :
    toNumber (ofNumber (round2 (x - round2 (toNumber a.acquisitionCost -
      toNumber a.accumulatedDepreciation)))) =
        disposalResult (toNumber a.acquisitionCost) (toNumber a.accumulatedDepreciation)
          (toNumber (ofNumber x)) := by
  have hbook : round2 (toNumber a.acquisitionCost - toNumber a.accumulatedDepreciation) =
      toNumber (a.acquisitionCost - a.accumulatedDepreciation) := by
    rw [← toNumber_sub, round2_toNumber]
  have hround : round2 (x - toNumber (a.acquisitionCost - a.accumulatedDepreciation)) =
      toNumber (ofNumber x - (a.acquisitionCost - a.accumulatedDepreciation)) := by
    rw [round2_eq_toNumber, sub_mul, toNumber_mul_hundred]
    congr 1
    unfold ofNumber
    rw [roundHalfAway_of_nonneg (by positivity)]
    exact round_sub_intCast _ _
  rw [hbook, hround, ofNumber_toNumber]
  unfold disposalResult
  rw [toNumber_sub, toNumber_sub]
  ring

/-- The disposal as a request stores it. -/
def requestedDisposal (auth : Auth) (body : DisposalBody) (a : Asset) : AssetDisposal :=
  let netBookValueAtDisposal :=
    round2 (toNumber a.acquisitionCost - toNumber a.accumulatedDepreciation)
  { institutionId := auth.institutionId, assetId := body.assetId, disposalType := body.disposalType,
    disposalDate := body.disposalDate, saleProceeds := body.saleProceeds.map ofNumber,
    netBookValueAtDisposal := ofNumber netBookValueAtDisposal,
    gainLoss := ofNumber (round2 (body.saleProceeds.getD 0 - netBookValueAtDisposal)),
    reason := body.reason, requestedById := auth.userId }

theorem requestedDisposal_saleProceeds (auth : Auth) (body : DisposalBody) (a : Asset) :
    (requestedDisposal auth body a).saleProceeds.getD 0 = ofNumber (body.saleProceeds.getD 0) := by
  unfold requestedDisposal
  cases body.saleProceeds with
  | none => exact ofNumber_zero.symm
  | some x => rfl

/-- A request that is accepted. -/
theorem run_requestDisposal_eq_ok {auth : Auth} {body : DisposalBody} {disposalId : Id}
    (h : (requestDisposal auth body).run s = (.ok disposalId, t)) :
    ∃ a, s.find? .asset body.assetId = some a ∧ t.find? .asset body.assetId = some a ∧
      t.find? .assetDisposal disposalId = some (requestedDisposal auth body a) ∧
        0 ≤ body.saleProceeds.getD 0 := by
  obtain ⟨⟨hproceeds, -⟩, h₁⟩ := run_require_bind_eq_ok h
  obtain ⟨-, h₂⟩ := run_require_bind_eq_ok h₁
  obtain ⟨a, ha, h₃⟩ := run_orFail_bind_eq_ok (run_query_bind h₂)
  obtain ⟨-, h₄⟩ := run_require_bind_eq_ok h₃
  have hfound : s.find? .asset body.assetId = some a := (Option.filter_eq_some_iff.mp ha).1
  obtain ⟨hid, ht⟩ := Prod.mk.inj h₄
  rw [← Except.ok.inj hid, ← ht]
  have hlast : ∀ (m : Model), m ≠ .auditLog → m ≠ .approvalRequest → ∀ (v : Db) request log id,
      ((v.insert .approvalRequest request).insert .auditLog log).find? m id = v.find? m id := by
    intro m hlog hrequest v request log id
    rw [Db.find?_insert_of_ne hlog, Db.find?_insert_of_ne hrequest]
  refine ⟨a, hfound, (hlast _ (by decide) (by decide) _ _ _ _).trans ?_,
    (hlast _ (by decide) (by decide) _ _ _ _).trans ?_, hproceeds⟩
  · rw [Db.find?_insert_of_ne (by decide)]
    exact hfound
  · rw [Db.find?_insert, if_pos rfl]
    rfl

end Requests

instance (s : Db) (d : AssetDisposal) (a : Asset) : Decidable (s.DisposalCovered d a) :=
  inferInstanceAs (Decidable (DisposalMapped _ _ _))

/-- The approval of a disposal succeeds, and any journal it posts is balanced and has the result of
the record, if and only if there is no journal to post, or the accounts are mapped that it needs and
the asset is worth what it was when the disposal was asked for. -/
theorem disposal_agrees_iff {s t u : Db} {auth : Auth} {body : DisposalBody} {disposalId : Id}
    (hfigures : ∀ a ∈ s.find? .asset body.assetId,
      0 ≤ a.acquisitionCost ∧ 0 ≤ a.accumulatedDepreciation)
    (hrequest : (requestDisposal auth body).run s = (.ok disposalId, t))
    (activities : List DisposalActivity)
    (hu : u = runAll (activities.map DisposalActivity.handler) t) (hsound : u.AssetMappingSound)
    (now : DateTime) (approvedById : Id) {request : ApprovalRequest}
    (htype : request.type = .assetDisposal) (htarget : request.targetId = disposalId) :
    ∃ a₀ a d, s.find? .asset body.assetId = some a₀ ∧ u.find? .asset body.assetId = some a ∧
      u.find? .assetDisposal disposalId = some d ∧
      ((∃ v, (applyApproval now request approvedById).run u = (.ok (), v) ∧
          v.DisposalBooked disposalId) ↔
        (u.DisposalPosts now d a → u.DisposalCovered d a ∧
          a.accumulatedDepreciation = a₀.accumulatedDepreciation)) := by
  obtain ⟨a₀, hbefore, hasset, hdisposal, hproceeds⟩ := run_requestDisposal_eq_ok hrequest
  have hages := ages_runAll activities t
  rw [← hu] at hages
  obtain ⟨a, ha, haged⟩ := hages.assets _ _ hasset
  obtain ⟨d, hd, hstated⟩ := hages.disposals _ _ hdisposal
  obtain ⟨-, hrest⟩ := Prod.mk.inj hstated
  obtain ⟨hassetId, hrest⟩ := Prod.mk.inj hrest
  obtain ⟨hsale, hgain⟩ := Prod.mk.inj hrest
  obtain ⟨hcost, haccumulated⟩ := hfigures a₀ hbefore
  have hsale' : d.saleProceeds.getD 0 = ofNumber (body.saleProceeds.getD 0) := by
    rw [hsale, requestedDisposal_saleProceeds]
  have hnonneg : d.Nonneg a := by
    refine ⟨haged.cost ▸ hcost, haccumulated.trans haged.accumulated, ?_⟩
    rw [hsale']
    exact ofNumber_nonneg hproceeds
  have hfound : u.find? .asset d.assetId = some a := by
    rw [hassetId]
    exact ha
  have hresult : toNumber d.gainLoss = d.result a ↔
      a.accumulatedDepreciation = a₀.accumulatedDepreciation := by
    have hstored : toNumber d.gainLoss = disposalResult (toNumber a₀.acquisitionCost)
        (toNumber a₀.accumulatedDepreciation) (toNumber (ofNumber (body.saleProceeds.getD 0))) := by
      rw [hgain]
      exact toNumber_gainLoss hproceeds a₀
    unfold AssetDisposal.result
    rw [hstored, hsale', haged.cost, ← toNumber_inj]
    unfold disposalResult
    constructor
    · intro h
      linarith
    · intro h
      linarith
  refine ⟨a₀, a, d, hbefore, ha, hd, ?_⟩
  simp only [applyApproval, htype, htarget]
  rw [run_disposeAsset_booked_iff hd hfound hnonneg hsound, hresult]

/-- An institution with an asset of 1000.00, which is depreciated over ten months, and accounts for
some purposes. -/
def assetBooks (purposes : List String) : Db :=
  let account := fun (name : String) (category : GLAccountCategory) (balance : Cents) =>
    ({ institutionId := 1, code := name, name, category, balance } : GLAccount)
  (purposes.foldl
    (fun s purpose => s.insert .assetGLAccountMapping ⟨1, purpose,
      if purpose = "Fixed Asset" then 1 else if purpose = "Accumulated Depreciation" then 2 else 3⟩)
    ((((Db.empty.insert .gLAccount (account "Fixed assets" .asset 100000)).insert
      .gLAccount (account "Depreciation" .asset 0)).insert
      .gLAccount (account "Result" .expense 0)).insert
      .financialPeriod { institutionId := 1, startDate := 0, endDate := 10 })).insert .asset
        { institutionId := 1, assetCode := "A-1", acquisitionCost := 100000, usefulLifeMonths := 10,
          depreciationMethod := .straightLine }

/-- The asset is broken. -/
def writeOffBody : DisposalBody :=
  { assetId := 1, disposalType := .writeOff, disposalDate := 5, saleProceeds := none,
    reason := "Broken" }

def writeOffDecision : ApprovalRequest :=
  { institutionId := 1, type := .assetDisposal, targetType := "AssetDisposal", targetId := 1,
    requestedById := 1 }

/-- All accounts are mapped, and nothing happens in between. -/
theorem disposal_agrees_iff_assetBooks :
    let t := ((requestDisposal ⟨1, 1⟩ writeOffBody).run (assetBooks disposalPurposes)).2
    ∃ v, (applyApproval 5 writeOffDecision 2).run t = (.ok (), v) ∧ v.DisposalBooked 1 := by
  intro t
  have hfigures : ∀ a ∈ (assetBooks disposalPurposes).find? .asset 1,
      0 ≤ a.acquisitionCost ∧ 0 ≤ a.accumulatedDepreciation := by decide +kernel
  have hcovered : ∀ d ∈ t.find? .assetDisposal 1, ∀ a ∈ t.find? .asset 1, t.DisposalCovered d a ∧
      a.accumulatedDepreciation = 0 := by decide +kernel
  obtain ⟨a₀, a, d, hbefore, ha, hd, hiff⟩ := disposal_agrees_iff hfigures
    (show (requestDisposal ⟨1, 1⟩ writeOffBody).run _ = (.ok 1, t) from rfl) [] rfl
    (by decide +kernel) 5 2 (show writeOffDecision.type = .assetDisposal from rfl) rfl
  have hnew : a₀.accumulatedDepreciation = 0 := by
    obtain rfl := Option.some.inj hbefore
    rfl
  exact hiff.mpr fun _ => ⟨(hcovered d hd a ha).1, (hcovered d hd a ha).2.trans hnew.symm⟩

/-- Without an account for losses the approval fails.  With all accounts mapped, a month of
depreciation in between leaves a loss of 1000.00 in the record and one of 900.00 in the journal. -/
theorem disposal_disagrees :
    let unmapped := ((requestDisposal ⟨1, 1⟩ writeOffBody).run
      (assetBooks ["Fixed Asset", "Accumulated Depreciation"])).2
    let requested := ((requestDisposal ⟨1, 1⟩ writeOffBody).run (assetBooks disposalPurposes)).2
    let depreciated := ((processDepreciation ⟨1, 1⟩ 5 1 "January").run requested).2
    let approved := ((applyApproval 5 writeOffDecision 2).run depreciated).2
    ((applyApproval 5 writeOffDecision 2).run unmapped).1.toBool = false ∧
      (approved.find? .assetDisposal 1).map (fun d => (d.gainLoss, d.journalId)) =
        some (-100000, some 1) ∧
      (approved.find? .journal 1).map (fun j => j.lines.map fun l => (l.debit, l.credit)) =
        some [(10000, 0), (0, 100000), (90000, 0)] := by
  decide +kernel

end NexusEfos
