/-
What a decision does to the ledger.

The approvals of a transfer between branches, of a payroll and of a disposal write a journal
and apply its lines in the transaction of the approval.  They check that the journal balances,
and their amounts come from columns, so its lines are whole cents and balance as they are
(`WholeBalanced`).  A decision about any other request than a posting leaves journals and
balances alone.
-/
import NexusEfos.Approvals.JournalPostings
import NexusEfos.Ledger.PostingSteps

namespace NexusEfos

open DoubleEntry

/-! ## Lines that are whole cents and balance -/

/-- All amounts are whole cents, and the debits equal the credits. -/
structure WholeBalanced (lines : List JournalLineInput) : Prop where
  whole : ∀ l ∈ lines, l.IsWholeCent
  balanced : (lines.map fun l => l.debit).sum = (lines.map fun l => l.credit).sum

/-- Whole cents that pass the check balance. -/
theorem sum_eq_of_isBalanced {lines : List LineInput} (hwhole : ∀ l ∈ lines, l.IsWholeCent)
    (h : isBalanced lines = true) :
    (lines.map LineInput.debit).sum = (lines.map LineInput.credit).sum := by
  have hdebits := (wholeCent_sum (f := LineInput.debit) fun l hl => (hwhole l hl).1).round2_eq
  have hcredits := (wholeCent_sum (f := LineInput.credit) fun l hl => (hwhole l hl).2).round2_eq
  simp only [isBalanced, hdebits, hcredits, Bool.and_eq_true, decide_eq_true_eq] at h
  exact h.1

theorem WholeBalanced.of_isBalanced {lines : List JournalLineInput}
    (hwhole : ∀ l ∈ lines, l.IsWholeCent)
    (h : isBalanced (lines.map JournalLineInput.toLineInput) = true) : WholeBalanced lines := by
  refine ⟨hwhole, ?_⟩
  have hsum := sum_eq_of_isBalanced ?_ h
  · rw [List.map_map, List.map_map] at hsum
    exact hsum
  · intro l hl
    obtain ⟨l', hl', rfl⟩ := List.mem_map.mp hl
    exact hwhole l' hl'

theorem WholeBalanced.categorise {lines : List LineInput} (hwhole : ∀ l ∈ lines, l.IsWholeCent)
    (h : isBalanced lines = true) (s : Db) : WholeBalanced (s.categorise lines) := by
  apply WholeBalanced.of_isBalanced
  · intro l hl
    obtain ⟨l', hl', rfl⟩ := List.mem_map.mp hl
    exact hwhole l' hl'
  · unfold Db.categorise
    rw [List.map_map]
    exact (congrArg (isBalanced · = true) (List.map_id lines)).mpr h

theorem isWholeCent_doubleEntry {x : ℚ} (hx : WholeCent x) (debited credited : Id × GLAccount) :
    ∀ l ∈ doubleEntry debited credited x, l.IsWholeCent := by
  intro l hl
  rcases List.mem_cons.mp hl with rfl | hl
  · exact ⟨hx, .zero⟩
  · rw [List.mem_singleton.mp hl]
    exact ⟨.zero, hx⟩

/-! ## Journals under construction -/

/-- A line of a draft is whole cents. -/
def DraftLine.IsWholeCent (d : DraftLine) : Prop := d.amounts.IsWholeCent

theorem DraftLine.isWholeCent_filter {drafts : List DraftLine} (p : DraftLine → Bool)
    (h : ∀ d ∈ drafts, d.IsWholeCent) : ∀ d ∈ drafts.filter p, d.IsWholeCent :=
  fun d hd => h d (List.mem_filter.mp hd).1

/-- The lines of a draft have its amounts. -/
theorem amounts_of_mapM {drafts : List DraftLine} {lines : List LineInput}
    (h : drafts.mapM DraftLine.line? = some lines) :
    drafts.map DraftLine.amounts = lines := by
  have hforall := forall₂_of_mapM h
  clear h
  induction hforall with
  | nil => rfl
  | cons hline _ ih =>
    rename_i d l _ _
    obtain ⟨accountId, haccount, hl⟩ := Option.map_eq_some_iff.mp hline
    rw [List.map_cons, ih, ← hl]
    unfold DraftLine.amounts
    rw [haccount]
    rfl

section Effects

variable {s t : Db}

/-- The loop over looked-up accounts does what the loop over categorised lines does. -/
theorem run_applyLinesById_eq_ok {lines : List LineInput} {u : Unit}
    {accountById : Id → Option GLAccount}
    (haccounts : ∀ a, (accountById a).map GLAccount.category = s.category? a)
    (h : (applyLinesById accountById lines).run s = (.ok u, t)) :
    t = s.applyEffects (s.categorise lines) := by
  induction lines generalizing s with
  | nil => exact (Prod.mk.inj h).2.symm
  | cons l ls ih =>
    unfold applyLinesById at h
    rw [Proc.forEach_cons, Proc.bind_assoc] at h
    obtain ⟨account, s₁, hread, h₁⟩ := Proc.run_bind_eq_ok h
    obtain ⟨haccount, hs₁⟩ := run_orFail_eq_ok hread
    rw [Proc.bind_assoc] at h₁
    obtain ⟨row, s₂, hupdate, h₂⟩ := Proc.run_bind_eq_ok h₁
    obtain ⟨_, -, -, hs₂⟩ := run_update_eq_ok hupdate
    have hcategory : s.category? l.accountId = some account.category := by
      rw [← haccounts, haccount]
      rfl
    have heffect : s₂ = s.applyEffects [l.withCategory account.category] := by
      rw [hs₂, hs₁]
      exact congrArg (s.modify .gLAccount l.accountId)
        (funext (update_balance_eq (l.withCategory account.category)))
    have hkept := Db.LedgerKept.applyEffects s [l.withCategory account.category]
    rw [heffect] at h₂
    have hrest := ih (fun a => (haccounts a).trans (hkept.category a).symm) h₂
    rw [hrest, hkept.categorise]
    unfold Db.categorise
    rw [List.map_cons, hcategory]
    rfl

/-- The journal that is written over lines under construction. -/
def draftJournal (institutionId approvedById : Id) (now postingDate : DateTime)
    (description : String) (lines : List LineInput) : Journal :=
  { institutionId, type := .automatic, description, status := .posted, postingDate,
    postedAt := some now, postedById := some approvedById, createdById := approvedById,
    lines := lines.map LineInput.stored }

/-- Lines under construction are written and applied, or nothing happens. -/
theorem run_postDraftLines_eq_ok {institutionId approvedById : Id} {now postingDate : DateTime}
    {description : String} {drafts : List DraftLine} {r : Option Id}
    (h : (postDraftLines institutionId approvedById now postingDate description drafts).run s =
      (.ok r, t)) :
    (isBalanced (drafts.map DraftLine.amounts) = false ∧ r = none ∧ t = s) ∨
      ∃ lines, isBalanced (drafts.map DraftLine.amounts) = true ∧
        drafts.mapM DraftLine.line? = some lines ∧
        (∀ l ∈ lines, (s.find? .gLAccount l.accountId).isSome) ∧ r = some (s.nextId .journal) ∧
        t = (s.insert .journal (draftJournal institutionId approvedById now postingDate description
          lines)).applyEffects (s.categorise lines) := by
  unfold postDraftLines at h
  split at h
  · next hbalanced =>
    obtain ⟨lines, hlines, h₁⟩ := run_orFail_bind_eq_ok h
    obtain ⟨journal, s₁, hcreate, h₂⟩ := Proc.run_bind_eq_ok (run_query_bind h₁)
    obtain ⟨hfound, hjournal, hs₁⟩ := run_createJournal_eq_ok hcreate
    obtain ⟨_, s₂, happly, h₃⟩ := Proc.run_bind_eq_ok h₂
    have hkept := Db.LedgerKept.insert_journal s (draftJournal institutionId approvedById now
      postingDate description lines)
    have hs₂ := run_applyLinesById_eq_ok (s := s₁) ?_ happly
    · refine .inr ⟨lines, hbalanced, hlines, ?_, ?_, ?_⟩
      · exact fun l hl => hfound l.stored (List.mem_map_of_mem hl)
      · rw [← hjournal]
        exact (Except.ok.inj (Prod.mk.inj h₃).1).symm
      · rw [← (Prod.mk.inj h₃).2, hs₂, hs₁]
        exact congrArg _ (hkept.categorise lines)
    · intro a
      rw [hs₁]
      exact (hkept.category a).symm
  · next hunbalanced =>
    obtain ⟨hr, hs⟩ := Prod.mk.inj h
    exact .inl ⟨Bool.eq_false_iff.mpr hunbalanced, (Except.ok.inj hr).symm, hs.symm⟩

/-- A draft of whole cents is posted in balance, or not at all. -/
theorem run_postDraftLines_settles {institutionId approvedById : Id} {now postingDate : DateTime}
    {description : String} {drafts : List DraftLine} {r : Option Id}
    (hwhole : ∀ d ∈ drafts, d.IsWholeCent)
    (h : (postDraftLines institutionId approvedById now postingDate description drafts).run s =
      (.ok r, t)) : s.Settles WholeBalanced t := by
  rcases run_postDraftLines_eq_ok h with ⟨-, -, rfl⟩ | ⟨lines, hbalanced, hlines, hfound, -, rfl⟩
  · exact .refl t
  · have hamounts := amounts_of_mapM hlines
    rw [hamounts] at hbalanced
    have hwholeLines : ∀ l ∈ lines, l.IsWholeCent := by
      intro l hl
      rw [← hamounts] at hl
      obtain ⟨d, hd, rfl⟩ := List.mem_map.mp hl
      exact hwhole d hd
    refine .post rfl (Db.stored_categorise lines).symm ?_ (.categorise hwholeLines hbalanced s)
    exact Db.categorised_categorise hfound

/-! ## The approval of a posting -/

/-- The lines of a journal with the descriptions they are stored with. -/
def describedInputsOf (found : List (JournalLine × GLAccount)) : List JournalLineInput :=
  found.map fun l => { l.1.input l.2.category with description := l.1.description }

theorem applyEffects_describedInputsOf (s : Db) (found : List (JournalLine × GLAccount)) :
    s.applyEffects (describedInputsOf found) = s.applyEffects (inputsOf found) := by
  induction found generalizing s with
  | nil => rfl
  | cons l ls ih => exact ih _

theorem stored_describedInputsOf (found : List (JournalLine × GLAccount)) :
    (describedInputsOf found).map (fun l => l.stored) = found.map Prod.fst := by
  unfold describedInputsOf
  rw [List.map_map]
  apply List.map_congr_left
  intro l _
  show JournalLine.mk l.1.accountId (ofNumber (toNumber l.1.debit)) (ofNumber (toNumber l.1.credit))
    l.1.description = l.1
  rw [ofNumber_toNumber, ofNumber_toNumber]

theorem isWholeCent_describedInputsOf (found : List (JournalLine × GLAccount)) :
    ∀ l ∈ describedInputsOf found, l.IsWholeCent := by
  intro l hl
  obtain ⟨l', -, rfl⟩ := List.mem_map.mp hl
  exact l'.1.isWholeCent_input l'.2.category

theorem categorised_describedInputsOf {found : List (JournalLine × GLAccount)}
    (h : ∀ l ∈ found, s.find? .gLAccount l.1.accountId = some l.2) :
    s.Categorised (describedInputsOf found) := by
  intro l hl
  obtain ⟨l', hl', rfl⟩ := List.mem_map.mp hl
  show (s.find? .gLAccount l'.1.accountId).map GLAccount.category = some l'.2.category
  rw [h l' hl']
  rfl

theorem wholeBalanced_describedInputsOf {found : List (JournalLine × GLAccount)}
    {lines : List JournalLine} (hfst : found.map Prod.fst = lines)
    (hbalanced : isBalanced (lines.map JournalLine.amounts) = true) :
    WholeBalanced (describedInputsOf found) := by
  constructor
  · exact isWholeCent_describedInputsOf found
  · have hsum := sum_inputsOf hfst hbalanced
    unfold inputsOf at hsum
    unfold describedInputsOf
    rw [List.map_map, List.map_map] at hsum ⊢
    exact hsum

/-- The approval of a posting applies the journal in full, unless it has been posted before. -/
theorem run_postApprovedJournal_applied {allowed : List JournalLineInput → Prop}
    (hallowed : ∀ lines, WholeBalanced lines → allowed lines) {now : DateTime}
    {approvedById journalId : Id} {u : Unit}
    (hopen : ∀ j, s.find? .journal journalId = some j → j.status ≠ .posted) {base : Id → Cents}
    {origin : Id → List JournalLineInput} {left : Multiset (Id × Cents)}
    (happlied : Applied allowed base s origin left)
    (h : (postApprovedJournal now approvedById journalId).run s = (.ok u, t)) :
    ∃ origin', Applied allowed base t origin' left := by
  obtain ⟨j, found, hj, hfst, haccounts, ⟨hbalanced, -, -, ht⟩ | ⟨reason, ht⟩⟩ :=
    run_postApprovedJournal_eq_ok h
  · have hcategorised := categorised_describedInputsOf haccounts
    have hlines : LinesOf allowed s (j.post approvedById now) (describedInputsOf found) :=
      ⟨hfst.symm.trans (stored_describedInputsOf found).symm, hcategorised,
        hallowed _ (wholeBalanced_describedInputsOf hfst hbalanced)⟩
    have hposted := happlied.publish (f := fun j => j.post approvedById now) hj (hopen j hj) rfl hlines
    have hloop : Applied allowed base ((s.modify .journal journalId
        fun j => j.post approvedById now).applyEffects (describedInputsOf found))
        (Function.update origin journalId (describedInputsOf found)) left := by
      have hleft : unapplied (describedInputsOf found) =
          unapplied (describedInputsOf found ++ []) := by rw [List.append_nil]
      rw [hleft] at hposted
      have happlied := hposted.applyEffects fun l hl =>
        (Db.category?_congr (Db.table_modify_of_ne (by decide) _ _ _) _).trans (hcategorised l hl)
      rwa [unapplied_nil, add_zero] at happlied
    -- The code applies the lines before it marks the journal as posted.
    have haccountsSame : s.Agree [.gLAccount] (s.modify .journal journalId
        fun j => j.post approvedById now) := Db.Agree.modify (m := .journal) (by decide) s _ _
    refine ⟨_, hloop.congr ?_⟩
    rw [ht, ← applyEffects_describedInputsOf]
    intro m hm
    rcases List.mem_cons.mp hm with rfl | hm
    · rw [Db.table_modify_of_ne (by decide)]
      exact (haccountsSame.applyEffects_congr _ .gLAccount (by decide)).symm
    · rw [List.mem_singleton.mp hm, Db.table_modify_self, Db.table_applyEffects (by decide),
        Db.table_applyEffects (by decide), Db.table_modify_self]
  · rw [ht]
    exact ⟨origin, happlied.rework hj (hopen j hj) nofun⟩

/-- What a decision about a posting does: it changes the journal, which is not posted yet, and
applies it if it posts it. -/
theorem ResolveCall.run_effect_posting {call : ResolveCall} {existing : ApprovalRequest} {u : Unit}
    (htype : existing.type = .journalPosting)
    (h : (call.effect existing).run s = (.ok u, t)) :
    (∀ id ≠ existing.targetId, t.find? .journal id = s.find? .journal id) ∧
      (∀ a, t.category? a = s.category? a) ∧
      t.table .recurringJournal = s.table .recurringJournal ∧
      ∀ {allowed : List JournalLineInput → Prop}, (∀ lines, WholeBalanced lines → allowed lines) →
        (∀ j, s.find? .journal existing.targetId = some j → j.status ≠ .posted) →
        ∀ base origin left, Applied allowed base s origin left →
          ∃ origin', Applied allowed base t origin' left := by
  have hchange : ∀ (v : Db) (f : Journal → Journal), v.table .journal = s.table .journal →
      t = v.modify .journal existing.targetId f → (∀ a, v.category? a = s.category? a) →
      v.table .recurringJournal = s.table .recurringJournal →
      (∀ id ≠ existing.targetId, t.find? .journal id = s.find? .journal id) ∧
        (∀ a, t.category? a = s.category? a) ∧
        t.table .recurringJournal = s.table .recurringJournal := by
    intro v f hjournal ht hcategory hrecurring
    rw [ht]
    refine ⟨?_, ?_, ?_⟩
    · intro id hid
      rw [Db.find?_modify, if_neg hid, Db.find?, hjournal]
      rfl
    · intro a
      exact (Db.category?_congr (Db.table_modify_of_ne (by decide) _ _ _) a).trans (hcategory a)
    · exact (Db.table_modify_of_ne (by decide) _ _ _).trans hrecurring
  unfold effect at h
  cases hdecision : call.decision with
  | approve =>
    simp only [hdecision, applyApproval, htype] at h
    have happlied : ∀ {allowed : List JournalLineInput → Prop},
        (∀ lines, WholeBalanced lines → allowed lines) →
        (∀ j, s.find? .journal existing.targetId = some j → j.status ≠ .posted) →
        ∀ base origin left, Applied allowed base s origin left →
          ∃ origin', Applied allowed base t origin' left :=
      fun hallowed hopen _ _ _ hbefore =>
        run_postApprovedJournal_applied hallowed hopen hbefore h
    obtain ⟨j, found, -, -, -, ⟨-, -, -, ht⟩ | ⟨reason, ht⟩⟩ := run_postApprovedJournal_eq_ok h
    · obtain ⟨hothers, hcategory, hrecurring⟩ := hchange _ _ (Db.table_applyEffects (by decide) _ _)
        ht (Db.category?_applyEffects _ _) (Db.table_applyEffects (by decide) _ _)
      exact ⟨hothers, hcategory, hrecurring, happlied⟩
    · obtain ⟨hothers, hcategory, hrecurring⟩ := hchange s _ rfl ht (fun _ => rfl) rfl
      exact ⟨hothers, hcategory, hrecurring, happlied⟩
  | reject =>
    simp only [hdecision, applyRejection, htype] at h
    obtain ⟨row, v, hupdate, hend⟩ := Proc.run_bind_eq_ok h
    obtain ⟨row₀, hrow₀, -, hv⟩ := run_update_eq_ok hupdate
    have ht : t = s.modify .journal existing.targetId fun j => { j with status := .draft } :=
      (Prod.mk.inj hend).2.symm.trans hv
    obtain ⟨hothers, hcategory, hrecurring⟩ := hchange s _ rfl ht (fun _ => rfl) rfl
    refine ⟨hothers, hcategory, hrecurring, ?_⟩
    intro allowed _ hopen base origin left hbefore
    rw [ht]
    exact ⟨origin, hbefore.rework hrow₀ (hopen row₀ hrow₀) (by simp)⟩

/-! ## The three approvals that post -/

/-- The lines of a payroll accrual are whole cents. -/
theorem isWholeCent_accrualLines {inputs : PayrollAccrualInputs} {accountIds : String → Option Id}
    (hgross : WholeCent inputs.totalGross) (hpaye : WholeCent inputs.totalPaye)
    (htier1 : WholeCent inputs.totalSsnitEmployerTier1) (htier2 : WholeCent inputs.totalTier2Employer)
    (hother : WholeCent inputs.totalOtherDeductions) (hnet : WholeCent inputs.totalNet) :
    ∀ d ∈ buildPayrollAccrualLines inputs accountIds, d.IsWholeCent := by
  apply DraftLine.isWholeCent_filter
  intro d hd
  simp only [List.mem_cons, List.not_mem_nil, or_false] at hd
  rcases hd with rfl | rfl | rfl | rfl | rfl | rfl | rfl | rfl
  · exact ⟨hgross, .zero⟩
  · exact ⟨htier1, .zero⟩
  · exact ⟨htier2, .zero⟩
  · exact ⟨.zero, hpaye⟩
  · exact ⟨.zero, wholeCent_round2 _⟩
  · exact ⟨.zero, htier2⟩
  · exact ⟨.zero, hother⟩
  · exact ⟨.zero, hnet⟩

theorem run_postAccrual_settles {now : DateTime} {approvedById runId : Id} {run : PayrollRun}
    {r : Option Id} (h : (postAccrual now approvedById runId run).run s = (.ok r, t)) :
    s.Settles WholeBalanced t := by
  obtain ⟨mappings, s₁, hread, h₁⟩ := Proc.run_bind_eq_ok h
  have hs₁ : s = s₁ := (Prod.mk.inj hread).2
  split at h₁
  · obtain ⟨period, s₂, hperiod, h₂⟩ := Proc.run_bind_eq_ok h₁
    have hs₂ : s₁ = s₂ := (Prod.mk.inj hperiod).2
    obtain ⟨glPeriod, s₃, hglPeriod, h₃⟩ := Proc.run_bind_eq_ok h₂
    have hs₃ : s₂ = s₃ := (Prod.mk.inj hglPeriod).2
    split at h₃
    · obtain ⟨entries, s₄, hentries, h₄⟩ := Proc.run_bind_eq_ok h₃
      have hs₄ : s₃ = s₄ := (Prod.mk.inj hentries).2
      rw [hs₁, hs₂, hs₃, hs₄]
      have htotal : ∀ f : PayrollEntry → Cents,
          WholeCent ((entries.map fun e => toNumber (f e.2)).sum) :=
        fun f => wholeCent_sum fun e _ => wholeCent_toNumber (f e.2)
      exact run_postDraftLines_settles (isWholeCent_accrualLines (wholeCent_toNumber _) (htotal _)
        (htotal _) (htotal _) (htotal _) (wholeCent_toNumber _)) h₄
    · rw [← (Prod.mk.inj h₃).2, hs₁, hs₂, hs₃]
      exact .refl s₃
  · rw [← (Prod.mk.inj h₁).2, hs₁]
    exact .refl s₁

/-- The lines of a disposal are whole cents. -/
theorem isWholeCent_disposalLines {cost accumulated proceeds : ℚ} {accountIds : String → Option Id}
    (hcost : WholeCent cost) (haccumulated : WholeCent accumulated) (hproceeds : WholeCent proceeds) :
    ∀ d ∈ buildAssetDisposalLines cost accumulated proceeds accountIds, d.IsWholeCent := by
  apply DraftLine.isWholeCent_filter
  intro d hd
  rcases List.mem_append.mp hd with hd | hd
  · rcases List.mem_append.mp hd with hd | hd
    · rcases List.mem_cons.mp hd with rfl | hd
      · exact ⟨haccumulated, .zero⟩
      · rw [List.mem_singleton.mp hd]
        exact ⟨.zero, hcost⟩
    · split at hd
      · rw [List.mem_singleton.mp hd]
        exact ⟨hproceeds, .zero⟩
      · exact absurd hd List.not_mem_nil
  · split at hd
    · rw [List.mem_singleton.mp hd]
      exact ⟨.zero, wholeCent_round2 _⟩
    · split at hd
      · rw [List.mem_singleton.mp hd]
        exact ⟨(wholeCent_round2 _).neg, .zero⟩
      · exact absurd hd List.not_mem_nil

theorem run_postDisposal_settles {now : DateTime} {approvedById : Id} {disposal : AssetDisposal}
    {asset : Asset} {r : Option Id}
    (h : (postDisposal now approvedById disposal asset).run s = (.ok r, t)) :
    s.Settles WholeBalanced t := by
  obtain ⟨mappings, s₁, hread, h₁⟩ := Proc.run_bind_eq_ok h
  have hs₁ : s = s₁ := (Prod.mk.inj hread).2
  dsimp only at h₁
  split at h₁
  · obtain ⟨glPeriod, s₂, hglPeriod, h₂⟩ := Proc.run_bind_eq_ok h₁
    have hs₂ : s₁ = s₂ := (Prod.mk.inj hglPeriod).2
    split at h₂
    · rw [hs₁, hs₂]
      exact run_postDraftLines_settles (isWholeCent_disposalLines (wholeCent_toNumber _)
        (wholeCent_toNumber _) (wholeCent_toNumber _)) h₂
    · rw [← (Prod.mk.inj h₂).2, hs₁, hs₂]
      exact .refl s₂
  · rw [← (Prod.mk.inj h₁).2, hs₁]
    exact .refl s₁

/-- What a quiet end of the code settles. -/
theorem Quiet.settles {α : Type} {p : Handler α} (hp : Quiet ledgerTables p) {a : α}
    (h : p.run s = (.ok a, t)) : s.Settles WholeBalanced t := by
  have hrun := hp.run s
  rw [h] at hrun
  exact .of_agree hrun

theorem run_approvePayrollRun_settles {now : DateTime} {approvedById targetId : Id} {u : Unit}
    (h : (approvePayrollRun now approvedById targetId).run s = (.ok u, t)) :
    s.Settles WholeBalanced t := by
  obtain ⟨run, s₁, hread, h₁⟩ := Proc.run_bind_eq_ok h
  obtain ⟨-, hs₁⟩ := run_findUniqueOrThrow_eq_ok hread
  obtain ⟨accrualJournalId, s₂, haccrual, h₂⟩ := Proc.run_bind_eq_ok h₁
  rw [← hs₁]
  exact (run_postAccrual_settles haccrual).trans (Quiet.settles (Quiet.update_end (by decide) _ _) h₂)

theorem run_disposeAsset_settles {now : DateTime} {approvedById targetId : Id} {u : Unit}
    (h : (disposeAsset now approvedById targetId).run s = (.ok u, t)) :
    s.Settles WholeBalanced t := by
  obtain ⟨disposal, s₁, hread, h₁⟩ := Proc.run_bind_eq_ok h
  obtain ⟨-, hs₁⟩ := run_findUniqueOrThrow_eq_ok hread
  obtain ⟨asset, s₂, hread₂, h₂⟩ := Proc.run_bind_eq_ok h₁
  obtain ⟨-, hs₂⟩ := run_findUniqueOrThrow_eq_ok hread₂
  obtain ⟨journalId, s₃, hpost, h₃⟩ := Proc.run_bind_eq_ok h₂
  rw [← hs₁, ← hs₂]
  refine (run_postDisposal_settles hpost).trans (Quiet.settles ?_ h₃)
  exact (Quiet.update (by decide) _ _).bind fun _ => Quiet.update_end (by decide) _ _

theorem run_findSettlementAccount_eq_ok {branchId : Id} {r : BranchSettlementAccount × GLAccount}
    (h : (findSettlementAccount branchId).run s = (.ok r, t)) :
    s.category? r.1.glAccountId = some r.2.category ∧ t = s := by
  obtain ⟨found, s₁, hread, h₁⟩ := Proc.run_bind_eq_ok h
  obtain ⟨hfound, hs₁⟩ := Prod.mk.inj hread
  obtain ⟨hr, ht⟩ := run_orFail_eq_ok h₁
  rw [← Except.ok.inj hfound] at hr
  obtain ⟨e, -, haccount⟩ := Option.bind_eq_some_iff.mp hr
  obtain ⟨account, hfind, hpair⟩ := Option.map_eq_some_iff.mp haccount
  refine ⟨?_, ht.trans hs₁.symm⟩
  rw [← hpair, Db.category?, hfind]
  rfl

theorem run_transferBetweenBranches_settles {now : DateTime} {approvedById targetId : Id} {u : Unit}
    (h : (transferBetweenBranches now approvedById targetId).run s = (.ok u, t)) :
    s.Settles WholeBalanced t := by
  obtain ⟨transfer, s₁, hread, h₁⟩ := Proc.run_bind_eq_ok h
  obtain ⟨-, hs₁⟩ := run_findUniqueOrThrow_eq_ok hread
  obtain ⟨fromSettlement, s₂, hfrom, h₂⟩ := Proc.run_bind_eq_ok h₁
  obtain ⟨hfromCategory, hs₂⟩ := run_findSettlementAccount_eq_ok hfrom
  obtain ⟨toSettlement, s₃, hto, h₃⟩ := Proc.run_bind_eq_ok h₂
  obtain ⟨htoCategory, hs₃⟩ := run_findSettlementAccount_eq_ok hto
  obtain ⟨fromAccount, s₄, hfromAccount, h₄⟩ := Proc.run_bind_eq_ok h₃
  obtain ⟨hfromFound, hs₄⟩ := run_findUniqueOrThrow_eq_ok hfromAccount
  obtain ⟨toAccount, s₅, htoAccount, h₅⟩ := Proc.run_bind_eq_ok h₄
  obtain ⟨htoFound, hs₅⟩ := run_findUniqueOrThrow_eq_ok htoAccount
  have hsame : s₅ = s := hs₅.trans (hs₄.trans (hs₃.trans (hs₂.trans hs₁)))
  rw [hs₂, hs₁] at htoCategory
  rw [hs₁] at hfromCategory
  rw [hs₃, hs₂, hs₁] at hfromFound
  rw [hs₄, hs₃, hs₂, hs₁] at htoFound
  dsimp only at h₅
  rw [hsame] at h₅
  split at h₅
  · next hbalanced =>
    obtain ⟨journal, s₆, hcreate, h₆⟩ := Proc.run_bind_eq_ok h₅
    obtain ⟨-, -, hs₆⟩ := run_createJournal_eq_ok hcreate
    obtain ⟨_, s₇, happly, h₇⟩ := Proc.run_bind_eq_ok h₆
    have hcategorised : s.Categorised
        (interBranchLines transfer fromSettlement toSettlement fromAccount toAccount) := by
      intro l hl
      rcases List.mem_append.mp hl with hl | hl
      · refine categorised_doubleEntry hfromCategory ?_ _ l hl
        rw [Db.category?, hfromFound]
        rfl
      · refine categorised_doubleEntry ?_ htoCategory _ l hl
        rw [Db.category?, htoFound]
        rfl
    have hwhole : ∀ l ∈ interBranchLines transfer fromSettlement toSettlement fromAccount toAccount,
        l.IsWholeCent := by
      intro l hl
      rcases List.mem_append.mp hl with hl | hl
      · exact isWholeCent_doubleEntry (wholeCent_toNumber _) _ _ l hl
      · exact isWholeCent_doubleEntry (wholeCent_toNumber _) _ _ l hl
    have hkept := Db.LedgerKept.insert_journal s
    have hfound : ∀ l ∈ interBranchLines transfer fromSettlement toSettlement fromAccount toAccount,
        (s₆.find? .gLAccount l.accountId).isSome := by
      intro l hl
      rw [hs₆]
      exact Db.isSome_of_category? ((hkept _).categorised hcategorised l hl)
    have hs₇ := congrArg Prod.snd ((run_applyLines hfound).symm.trans happly)
    refine Db.Settles.trans ?_ (Quiet.settles (Quiet.update_end (by decide) _ _) h₇)
    rw [← show _ = s₇ from hs₇, hs₆]
    exact .post rfl rfl hcategorised (.of_isBalanced hwhole hbalanced)
  · exact Quiet.settles (Quiet.update_end (by decide) _ _) h₅

/-- A decision about anything else than a posting keeps the balances in line with the
journals. -/
theorem ResolveCall.run_effect_settles {call : ResolveCall} {existing : ApprovalRequest} {u : Unit}
    (htype : existing.type ≠ .journalPosting)
    (h : (call.effect existing).run s = (.ok u, t)) : s.Settles WholeBalanced t := by
  have hrecurring : ∀ (f : RecurringJournal → RecurringJournal) {u : Unit},
      (do let _ ← update .recurringJournal existing.targetId f).run s = (.ok u, t) →
        (∀ r, (f r).lineTemplate = r.lineTemplate) → s.Settles WholeBalanced t := by
    intro f u hrun hf
    obtain ⟨row, s₁, hupdate, hend⟩ := Proc.run_bind_eq_ok hrun
    obtain ⟨_, -, -, hs₁⟩ := run_update_eq_ok hupdate
    rw [← (Prod.mk.inj hend).2, hs₁]
    refine .of_kept (Db.LedgerKept.modify_recurring s _ hf) ?_
    exact Db.Agree.modify (m := .recurringJournal) (by decide) s _ f
  have hquiet : (∀ m ∈ approvalWrites existing.type, m ∉ ledgerTables) →
      s.Settles WholeBalanced t := fun hm => Quiet.settles (call.quiet_effect hm) h
  unfold effect at h
  cases hdecision : call.decision with
  | approve =>
    simp only [hdecision, applyApproval] at h
    cases hcase : existing.type
    case journalPosting => exact absurd hcase htype
    case interBranchTransfer =>
      rw [hcase] at h
      exact run_transferBetweenBranches_settles h
    case payrollRunApproval =>
      rw [hcase] at h
      exact run_approvePayrollRun_settles h
    case assetDisposal =>
      rw [hcase] at h
      exact run_disposeAsset_settles h
    case recurringJournalActivation =>
      rw [hcase] at h
      exact hrecurring _ h fun _ => rfl
    all_goals
      apply hquiet
      rw [hcase]
      decide
  | reject =>
    simp only [hdecision, applyRejection] at h
    cases hcase : existing.type
    case journalPosting => exact absurd hcase htype
    case interBranchTransfer | payrollRunApproval | assetDisposal =>
      rw [hcase] at h
      exact Quiet.settles (Quiet.update_end (by decide) _ _) h
    case recurringJournalActivation =>
      rw [hcase] at h
      exact hrecurring _ h fun _ => rfl
    all_goals
      apply hquiet
      rw [hcase]
      decide

end Effects

end NexusEfos
