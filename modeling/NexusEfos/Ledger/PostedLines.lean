/-
What a posting does to the ledger, line by line.

`Db.MovedBy` is what it comes to: the accounts of the lines were there, no account changed its
category, and every balance moved by what the stored lines say.  It is the same for every way
in which the source applies lines: with the account at hand or by its identifier, and for lines
under construction.
-/
import NexusEfos.Ledger.Refinement

namespace NexusEfos

open DoubleEntry

/-- The entries that are stored for some lines. -/
def entriesOf (lines : List LineInput) : List (Entry Id Cents) :=
  lines.map fun l => l.stored.entry

/-- The lines have been applied to the balances, and nothing else has. -/
structure Db.MovedBy (s : Db) (lines : List LineInput) (t : Db) : Prop where
  found : ∀ l ∈ lines, (s.find? .gLAccount l.accountId).isSome = true
  category : ∀ a, t.category? a = s.category? a
  balance : ∀ a, t.glBalance a = s.glBalance a + movement s.side (entriesOf lines) a

namespace Db.MovedBy

variable {s t u : Db} {lines : List LineInput}

theorem of_agree (h : s.Agree [.gLAccount] t) : s.MovedBy [] t where
  found := fun _ hl => absurd hl List.not_mem_nil
  category := category?_congr (h _ (by decide))
  balance := by
    intro a
    rw [glBalance_congr (h _ (by decide))]
    exact (add_zero _).symm

/-- What comes before and after the posting. -/
theorem congr {s' t' : Db} (h : s.MovedBy lines t) (hs : s'.Agree [.gLAccount] s)
    (ht : t.Agree [.gLAccount] t') : s'.MovedBy lines t' := by
  have hcategory : ∀ a, s.category? a = s'.category? a := category?_congr (hs _ (by decide))
  have hside : s.side = s'.side := by
    funext a
    unfold side
    rw [hcategory]
  constructor
  · intro l hl
    rw [← hs.find? (by decide)]
    exact h.found l hl
  · intro a
    rw [category?_congr (ht _ (by decide)), h.category, hcategory]
  · intro a
    rw [glBalance_congr (ht _ (by decide)), h.balance, glBalance_congr (hs _ (by decide)), hside]

/-- No line is on an account that does not exist. -/
theorem netOn_eq_zero (h : s.MovedBy lines t) {a : Id} (ha : s.category? a = none) :
    netOn (entriesOf lines) a = 0 := by
  apply DoubleEntry.netOn_eq_zero
  rintro e he rfl
  obtain ⟨l, hl, rfl⟩ := List.mem_map.mp he
  have hfound := h.found l hl
  rw [show s.find? .gLAccount l.accountId = none from Option.map_eq_none_iff.mp ha] at hfound
  exact absurd hfound nofun

/-- The lines have been applied to a state with the journal in it. -/
theorem applyEffects (hwhole : ∀ l ∈ lines, l.IsWholeCent)
    (hfound : ∀ l ∈ lines, (s.find? .gLAccount l.accountId).isSome = true) (j : Journal) :
    s.MovedBy lines ((s.insert .journal j).applyEffects (s.categorise lines)) where
  found := hfound
  category := fun a => (category?_applyEffects _ _ a).trans
    (category?_congr (table_insert_of_ne (by decide) _ _) a)
  balance := by
    intro a
    have hkept := LedgerKept.insert_journal s j
    have hcategorised := categorised_categorise hfound
    have hlines : ∀ l ∈ s.categorise lines, l.IsWholeCent := by
      intro l hl
      obtain ⟨l', hl', rfl⟩ := List.mem_map.mp hl
      exact hwhole l' hl'
    have hmoved := movementOf_eq hlines hcategorised a
    have hstored := stored_categorise (s := s) lines
    rw [hstored, List.map_map] at hmoved
    rw [glBalance_applyEffects_of_category? fun l hl =>
      (hkept.category _).trans (hcategorised l hl), glBalance_congr (table_insert_of_ne (by decide)
        _ _), hmoved]
    rfl

end Db.MovedBy

/-- The lines that are posted of those under construction. -/
def postedDraftLines (drafts : List DraftLine) : List LineInput :=
  if isBalanced (drafts.map DraftLine.amounts) = true then drafts.map DraftLine.amounts else []

theorem run_postDraftLines_movedBy {institutionId approvedById : Id} {now postingDate : DateTime}
    {description : String} {drafts : List DraftLine} {r : Option Id} {s t : Db}
    (hwhole : ∀ d ∈ drafts, d.IsWholeCent)
    (h : (postDraftLines institutionId approvedById now postingDate description drafts).run s =
      (.ok r, t)) : s.MovedBy (postedDraftLines drafts) t := by
  unfold postedDraftLines
  rcases run_postDraftLines_eq_ok h with
    ⟨hunbalanced, -, rfl⟩ | ⟨lines, hbalanced, hlines, hfound, -, rfl⟩
  · rw [hunbalanced]
    exact .of_agree (.refl t)
  · rw [if_pos hbalanced, amounts_of_mapM hlines]
    refine .applyEffects ?_ hfound _
    intro l hl
    rw [← amounts_of_mapM hlines] at hl
    obtain ⟨d, hd, rfl⟩ := List.mem_map.mp hl
    exact hwhole d hd

/-- A journal that is written and applied with the accounts that were read before. -/
theorem run_postById_movedBy {α : Type} {lab : Access} {j : Journal} {lines : List LineInput}
    {accountById : Id → Option GLAccount} {k : Id → Handler α} {a : α} {s t : Db}
    (haccounts : accountById = s.find? .gLAccount) (hlines : j.lines = lines.map LineInput.stored)
    (hwhole : ∀ l ∈ lines, l.IsWholeCent)
    (h : (createJournalAs lab j >>= fun id => applyLinesById accountById lines >>= fun _ =>
      k id).run s = (.ok a, t)) :
    ∃ v, s.MovedBy lines v ∧ (k (s.nextId .journal)).run v = (.ok a, t) := by
  obtain ⟨id, s₁, hcreate, h₁⟩ := Proc.run_bind_eq_ok h
  obtain ⟨hfound, hid, hs₁⟩ := run_createJournal_eq_ok hcreate
  obtain ⟨_, s₂, happly, h₂⟩ := Proc.run_bind_eq_ok h₁
  have hkept := Db.LedgerKept.insert_journal s j
  have hs₂ := run_applyLinesById_eq_ok (s := s₁) ?_ happly
  · refine ⟨s₂, ?_, hid ▸ h₂⟩
    rw [hs₂, hs₁, hkept.categorise]
    apply Db.MovedBy.applyEffects hwhole
    intro l hl
    apply hfound l.stored
    rw [hlines]
    exact List.mem_map_of_mem hl
  · intro b
    rw [hs₁, haccounts]
    exact (hkept.category b).symm

end NexusEfos
