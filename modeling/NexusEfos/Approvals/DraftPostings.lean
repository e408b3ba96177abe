/-
When a journal under construction is posted.

`postDraftLines` posts lines that balance, on accounts that are all mapped and there; it leaves lines
alone that do not balance; and it fails on a line whose account nothing maps.
-/
import NexusEfos.Approvals.LedgerEffects

namespace NexusEfos

/-! ## Lines under construction -/

section Drafts

variable {drafts : List DraftLine}

/-- Lines without an amount do not count. -/
theorem sum_filter_hasAmount (h : ∀ d ∈ drafts, 0 ≤ d.debit ∧ 0 ≤ d.credit) :
    ((drafts.filter DraftLine.hasAmount).map DraftLine.debit).sum =
        (drafts.map DraftLine.debit).sum ∧
      ((drafts.filter DraftLine.hasAmount).map DraftLine.credit).sum =
        (drafts.map DraftLine.credit).sum := by
  induction drafts with
  | nil => exact ⟨rfl, rfl⟩
  | cons d ds ih =>
    rw [List.forall_mem_cons] at h
    obtain ⟨hdebits, hcredits⟩ := ih h.2
    rw [List.map_cons, List.map_cons, List.sum_cons, List.sum_cons, ← hdebits, ← hcredits]
    by_cases hd : d.hasAmount = true
    · rw [List.filter_cons_of_pos hd, List.map_cons, List.map_cons, List.sum_cons, List.sum_cons]
      exact ⟨rfl, rfl⟩
    · rw [List.filter_cons_of_neg hd]
      simp only [DraftLine.hasAmount, Bool.or_eq_true, decide_eq_true_eq, not_or, not_lt] at hd
      rw [le_antisymm hd.1 h.1.1, le_antisymm hd.2 h.1.2, zero_add, zero_add]
      exact ⟨rfl, rfl⟩

theorem isBalanced_amounts (drafts : List DraftLine) :
    isBalanced (drafts.map DraftLine.amounts) = true ↔
      round2 (drafts.map DraftLine.debit).sum = round2 (drafts.map DraftLine.credit).sum ∧
        0 < round2 (drafts.map DraftLine.debit).sum := by
  unfold isBalanced
  rw [List.map_map, List.map_map, Bool.and_eq_true, decide_eq_true_eq, decide_eq_true_eq]
  rfl

theorem mapM_line? (h : ∀ d ∈ drafts, d.accountId.isSome) :
    drafts.mapM DraftLine.line? = some (drafts.map DraftLine.amounts) := by
  induction drafts with
  | nil => rfl
  | cons d ds ih =>
    rw [List.forall_mem_cons] at h
    obtain ⟨a, ha⟩ := Option.isSome_iff_exists.mp h.1
    have hline : d.line? = some d.amounts := by
      unfold DraftLine.line? DraftLine.amounts
      rw [ha]
      rfl
    rw [List.mapM_cons, hline, ih h.2]
    rfl

end Drafts

/-! ## Posting them -/

section DraftPostings

variable {s : Db} {lines : List LineInput} {drafts : List DraftLine}
  {institutionId approvedById : Id} {now postingDate : DateTime} {description : String}

/-- The loop over looked-up accounts succeeds when the accounts are there. -/
theorem run_applyLinesById {accountById : Id → Option GLAccount}
    (haccounts : ∀ a, (accountById a).map GLAccount.category = s.category? a)
    (hfound : ∀ l ∈ lines, (s.find? .gLAccount l.accountId).isSome) :
    (applyLinesById accountById lines).run s = (.ok (), s.applyEffects (s.categorise lines)) := by
  have hread : ∀ l ∈ lines, (accountById l.accountId).isSome := by
    intro l hl
    have hcategory := haccounts l.accountId
    rw [Db.category?] at hcategory
    rw [← @Option.isSome_map _ _ GLAccount.category, hcategory, Option.isSome_map]
    exact hfound l hl
  have hsucceeds : ∃ t, (applyLinesById accountById lines).run s = (.ok (), t) := by
    clear haccounts
    induction lines generalizing s with
    | nil => exact ⟨s, rfl⟩
    | cons l ls ih =>
      rw [List.forall_mem_cons] at hfound hread
      obtain ⟨account, haccount⟩ := Option.isSome_iff_exists.mp hread.1
      obtain ⟨row, hrow⟩ := Option.isSome_iff_exists.mp hfound.1
      have hupdate := run_update .gLAccount l.accountId (fun a : Row .gLAccount =>
        { a with balance := increment a.balance
                   (balanceEffect account.category l.debit l.credit) }) s
      rw [hrow] at hupdate
      have hrest : ∀ l' ∈ ls, ((s.modify .gLAccount l.accountId fun a =>
          { a with balance := increment a.balance
                     (balanceEffect account.category l.debit l.credit) }).find? .gLAccount
            l'.accountId).isSome := by
        intro l' hl'
        rw [Db.find?_modify]
        split
        · rw [Option.isSome_map]
          exact hfound.2 l' hl'
        · exact hfound.2 l' hl'
      obtain ⟨t, ht⟩ := ih hrest hread.2
      refine ⟨t, ?_⟩
      rw [applyLinesById, Proc.forEach_cons, Proc.bind_assoc, haccount, Proc.orFail_some]
      show ((update .gLAccount l.accountId _ >>= fun _ => pure ()) >>= fun _ =>
        applyLinesById accountById ls).run s = _
      rw [Proc.bind_assoc, Proc.run_bind_ok hupdate]
      exact ht
  obtain ⟨t, ht⟩ := hsucceeds
  rw [ht, run_applyLinesById_eq_ok haccounts ht]

/-- Lines that balance, on accounts that are there. -/
theorem run_postDraftLines (hbalanced : isBalanced (drafts.map DraftLine.amounts) = true)
    (hlines : drafts.mapM DraftLine.line? = some lines)
    (hfound : ∀ l ∈ lines, (s.find? .gLAccount l.accountId).isSome) :
    (postDraftLines institutionId approvedById now postingDate description drafts).run s =
      (.ok (some (s.nextId .journal)),
        (s.insert .journal (draftJournal institutionId approvedById now postingDate description
          lines)).applyEffects (s.categorise lines)) := by
  have hstored : ∀ l ∈ (draftJournal institutionId approvedById now postingDate description
      lines).lines, (s.find? .gLAccount l.accountId).isSome := by
    intro l hl
    obtain ⟨l', hl', rfl⟩ := List.mem_map.mp hl
    exact hfound l' hl'
  have hkept := Db.LedgerKept.insert_journal s (draftJournal institutionId approvedById now
    postingDate description lines)
  have happly : (applyLinesById (s.find? .gLAccount) lines).run (s.insert .journal (draftJournal
      institutionId approvedById now postingDate description lines)) =
        (.ok (), (s.insert .journal (draftJournal institutionId approvedById now postingDate
          description lines)).applyEffects (s.categorise lines)) := by
    rw [← hkept.categorise]
    apply run_applyLinesById (fun a => (hkept.category a).symm)
    intro l hl
    rw [Db.find?_insert_of_ne (by decide)]
    exact hfound l hl
  unfold postDraftLines
  rw [if_pos hbalanced, hlines, Proc.orFail_some]
  show (createJournal (draftJournal institutionId approvedById now postingDate description lines) >>=
    _).run s = _
  rw [Proc.run_bind_ok (run_createJournal hstored)]
  exact Proc.run_bind_ok happly _

/-- Lines that do not balance. -/
theorem run_postDraftLines_unbalanced
    (hbalanced : isBalanced (drafts.map DraftLine.amounts) = false) :
    (postDraftLines institutionId approvedById now postingDate description drafts).run s =
      (.ok none, s) := by
  unfold postDraftLines
  rw [if_neg (by rw [hbalanced]; decide)]
  rfl

/-- A line whose account nothing maps. -/
theorem run_postDraftLines_unmapped (hbalanced : isBalanced (drafts.map DraftLine.amounts) = true)
    (hlines : drafts.mapM DraftLine.line? = none) :
    (postDraftLines institutionId approvedById now postingDate description drafts).run s =
      (.error validationError, s) := by
  unfold postDraftLines
  rw [if_pos hbalanced, hlines]
  rfl

end DraftPostings

end NexusEfos
