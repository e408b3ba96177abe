/-
The scheduled run of the recurring journals: `lib/scheduler.ts`.

A due journal is posted from its template, line by line and outside a transaction, and then
its next date is set.
-/
import NexusEfos.Ledger.PostingSteps

namespace NexusEfos

open Proc

/-! ## The code -/

/-- The template as the run reads it: the journal gets no texts for its lines. -/
def RecurringJournal.lines (rj : RecurringJournal) : List LineInput :=
  rj.lineTemplate.map fun l => { l with description := none }

/-- Count a failed execution against the recurring journal and record it. -/
def failRecurring (rjId : Id) (rj : RecurringJournal) (failureReason : String) :
    Handler Unit := do
  let consecutiveFailures := rj.consecutiveFailures + 1
  let _ ← updateAs { moves := some (.recurringJournal rjId) } .recurringJournal rjId fun r =>
    { r with consecutiveFailures,
             status := if rj.maxRetries ≤ consecutiveFailures then .suspended else .active }
  let _ ← create .recurringJournalExecution
    { recurringJournalId := rjId, status := .failed, failureReason := some failureReason }

/-- Record a successful execution and set the next date. -/
def recordRecurring (rjId : Id) (rj : RecurringJournal) (journalId : Id) : Handler Unit := do
  let _ ← create .recurringJournalExecution
    { recurringJournalId := rjId, status := .success, journalId := some journalId }
  let _ ← updateAs { advances := some (.recurringJournal rjId, rj.nextExecutionDate) }
    .recurringJournal rjId fun r =>
    { r with nextExecutionDate :=
               nextExecutionDate rj.nextExecutionDate rj.frequency rj.customIntervalDays,
             consecutiveFailures := 0 }

/-- The journal of one execution. -/
def RecurringJournal.journal (rj : RecurringJournal) (now : DateTime) : Journal :=
  { institutionId := rj.institutionId, type := .recurring, description := rj.description,
    postingDate := rj.nextExecutionDate, status := .posted, postedAt := some now,
    createdById := rj.createdById, postedById := some rj.createdById,
    lines := rj.lines.map LineInput.stored }

/-- One turn of the loop. -/
def executeRecurring (now : DateTime) (rjId : Id) (rj : RecurringJournal) : Handler Unit := do
  let accountById ← query fun s => s.find? .gLAccount
  let allAccountsExist := rj.lines.all fun l => (accountById l.accountId).isSome
  let allActive := allAccountsExist &&
    rj.lines.all fun l => (accountById l.accountId).any fun a => a.status = .active
  let stillBalanced := isBalanced rj.lines
  let period ← findPostablePeriod rj.institutionId rj.nextExecutionDate
  let periodOpen := period.any fun p => p.2.status = .opened
  if allActive && stillBalanced && periodOpen then
    let journal ← createJournalAs
      { posts := rj.lines,
        posting := some ⟨rj.institutionId, rj.nextExecutionDate, rj.lines.map LineInput.accountId⟩,
        executes := some (.recurringJournal rjId, rj.nextExecutionDate) }
      (rj.journal now)
    applyLinesById accountById rj.lines
    recordRecurring rjId rj journal
  else
    failRecurring rjId rj
      (if !allAccountsExist || !allActive then
        "one or more template accounts are missing or inactive"
      else if !stillBalanced then "template no longer balances"
      else match period with
        | some p => "financial period is " ++ p.2.status.text
        | none => "no financial period covers this date")

def runRecurringJournals (now : DateTime) : Handler Unit := do
  let due ← findMany .recurringJournal fun _ rj =>
    rj.status = .active ∧ rj.nextExecutionDate ≤ now
  Proc.forEach due fun rj => executeRecurring now rj.1 rj.2

/-! ## What a run does to the ledger -/

/-- Every line list made from the template of a recurring journal is allowed. -/
def Db.TemplatesAllowed (allowed : List JournalLineInput → Prop) (s : Db) : Prop :=
  ∀ id rj, s.find? .recurringJournal id = some rj → isBalanced rj.lines = true →
    allowed (s.categorise rj.lines)

section Run

variable {allowed : List JournalLineInput → Prop} {s : Db}

theorem Db.LedgerKept.lines_eq {t : Db} {id : Id} {rj : RecurringJournal} (h : s.LedgerKept t)
    (hrj : t.find? .recurringJournal id = some rj) :
    ∃ rj₀, s.find? .recurringJournal id = some rj₀ ∧ rj.lines = rj₀.lines := by
  obtain ⟨rj₀, hrj₀, hlines⟩ := h.template id rj hrj
  refine ⟨rj₀, hrj₀, ?_⟩
  unfold RecurringJournal.lines
  rw [hlines]

/-- An update of a recurring journal that keeps its template. -/
theorem follows_updateRecurring {α : Type} {lab : Access} {id : Id}
    {f : RecurringJournal → RecurringJournal} (hf : ∀ r, (f r).lineTemplate = r.lineTemplate)
    {k : RecurringJournal → Handler α} {Q : Db → Multiset (Id × Cents) → Except Failure α → Prop}
    {d : Multiset (Id × Cents)}
    (hk : ∀ t r, s.LedgerKept t → (k r).Follows (ledgerProtocol allowed) Q t d)
    (herr : ∀ t e, Q t d (.error e)) :
    (updateAs lab .recurringJournal id f >>= k).Follows (ledgerProtocol allowed) Q s d := by
  intro t ht
  have hkept : s.LedgerKept t := ht
  have hagree : t.Agree [.gLAccount, .journal] (t.modify .recurringJournal id f) :=
    Db.Agree.modify (m := .recurringJournal) (by decide) t id f
  have hsettles : t.Settles allowed (t.modify .recurringJournal id f) :=
    .of_kept (Db.LedgerKept.modify_recurring t id hf) hagree
  cases hrow : t.find? .recurringJournal id with
  | some r =>
    simp only [hrow]
    obtain ⟨hrely, hguar⟩ := ledgerProtocol_settles lab d hsettles
    exact ⟨d, hrely, hguar, hk _ _ (hkept.trans hsettles.kept)⟩
  | none =>
    simp only [hrow]
    exact ⟨d, Db.LedgerKept.refl t, (ledgerProtocol_settles lab d (.refl t)).2, herr t _⟩

/-- One turn of the loop starts and ends without debt. -/
theorem executeRecurring_keepsLedger (now : DateTime) (rjId : Id) (rj : RecurringJournal)
    (hallowed : isBalanced rj.lines = true → allowed (s.categorise rj.lines)) :
    (executeRecurring now rjId rj).Follows (ledgerProtocol allowed)
      (fun t d r => d = 0 ∧ (r = .ok () → s.LedgerKept t)) s 0 := by
  have hW := ledgerProtocol_watches allowed
  refine hW.query ?_
  intro s₁ h₁
  refine hW.query ?_
  intro s₂ h₂
  have hkept₂ : s.LedgerKept s₂ := Db.LedgerKept.trans h₁ h₂
  dsimp only
  split
  · next hpostable =>
    have hbalanced : isBalanced rj.lines = true := by
      simp only [Bool.and_eq_true] at hpostable
      exact hpostable.1.2
    refine follows_postBare rfl rfl ?_ ?_ ?_ fun _ _ => ⟨rfl, nofun⟩
    · rw [hkept₂.categorise]
      exact hallowed hbalanced
    · intro a
      exact (h₂.category a).symm
    · intro s₃ journal h₃
      refine hW.quiet (Quiet.create (by decide) _) ?_ fun _ _ => ⟨rfl, nofun⟩
      intro s₄ _ h₄
      refine follows_updateRecurring ?_ ?_ fun _ _ => ⟨rfl, nofun⟩
      · exact fun _ => rfl
      intro s₅ _ h₅
      exact ⟨rfl, fun _ => hkept₂.trans (h₃.trans (Db.LedgerKept.trans h₄ h₅))⟩
  · refine follows_updateRecurring ?_ ?_ fun _ _ => ⟨rfl, nofun⟩
    · exact fun _ => rfl
    intro s₃ _ h₃
    refine hW.quiet_end ((Quiet.create (by decide) _).bind fun _ => Quiet.pure _) ?_
    intro s₄ _ h₄
    exact ⟨rfl, fun _ => hkept₂.trans (h₃.trans h₄)⟩

theorem runRecurringJournals_keepsLedger (now : DateTime) (hallowed : s.TemplatesAllowed allowed) :
    KeepsLedger allowed s (runRecurringJournals now) := by
  have hW := ledgerProtocol_watches allowed
  refine hW.query ?_
  intro s₁ h₁
  have hkept₁ : s.LedgerKept s₁ := h₁
  refine Follows.imp (Follows.forEach (J := fun t => s₁.LedgerKept t) ?_ (Db.LedgerKept.refl s₁))
    fun _ _ _ h => h.1
  intro rj hrj t ht
  have hfound : s₁.find? .recurringJournal rj.1 = some rj.2 :=
    OrderedMap.get?_eq_some.mpr (List.mem_filter.mp hrj).1
  obtain ⟨rj₀, hrj₀, hlines⟩ := hkept₁.lines_eq hfound
  refine (executeRecurring_keepsLedger now rj.1 rj.2 ?_).imp fun u d r h => ⟨h.1, fun hr =>
    ht.trans (h.2 hr)⟩
  intro hbalanced
  rw [ht.categorise, hkept₁.categorise, hlines]
  exact hallowed rj.1 rj₀ hrj₀ (hlines ▸ hbalanced)

end Run

end NexusEfos
