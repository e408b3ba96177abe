/-
Posting: a journal is written and its lines are added to the account balances.

Some dozen places of the program write a posted journal and then run a loop that
increments `gLAccount.balance` line by line.  `createJournal` and `applyLines`
are these two halves.  `Db.applyEffects` is the outcome of the loop, and
`find?_applyEffects` says account by account what it is: the balance moves by the
sum of the effects of the lines on that account, and nothing else changes.
-/
import NexusEfos.Dates
import NexusEfos.Ledger.GeneralLedger
import NexusEfos.Prisma

namespace NexusEfos

open DoubleEntry

/-! ## The code -/

def findPostablePeriod (institutionId : Id) (date : DateTime) :
    Handler (Option (Id × FinancialPeriod)) :=
  findFirst .financialPeriod fun _ p =>
    p.institutionId = institutionId ∧ p.startDate ≤ date ∧ date ≤ p.endDate

/-- `journal.create` with its lines, under a label: a line on an account that does
not exist violates the foreign key. -/
def createJournalAs (lab : Access) (journal : Journal) : Handler Id :=
  Proc.attempt lab fun s =>
    if ∀ l ∈ journal.lines, (s.find? .gLAccount l.accountId).isSome then
      (.ok (s.nextId .journal), s.insert .journal journal)
    else (.error foreignKeyViolation, s)

def createJournal (journal : Journal) : Handler Id := createJournalAs {} journal

/-- The loop that adds the effect of each line to the balance of its account. -/
def applyLines (lines : List JournalLineInput) : Handler Unit :=
  Proc.forEach lines fun line => do
    let _ ← update .gLAccount line.accountId fun a =>
      { a with balance := increment a.balance line.effect }

/-- A line whose account has been looked up. -/
def LineInput.withCategory (line : LineInput) (category : GLAccountCategory) : JournalLineInput :=
  { line with category }

/-- The same loop where the accounts have been read into a map. -/
def applyLinesById (accountById : Id → Option GLAccount) (lines : List LineInput) : Handler Unit :=
  Proc.forEach lines fun line => do
    let account ← Proc.orFail (accountById line.accountId)
      (.thrown "Cannot read properties of undefined (reading 'category')")
    let effect := balanceEffect account.category line.debit line.credit
    let _ ← update .gLAccount line.accountId fun a =>
      { a with balance := increment a.balance effect }

/-- The header the program gives to every journal that a business event posts at
once. -/
def automaticJournal (auth : Auth) (now : DateTime) (description : String)
    (lines : List JournalLineInput) : Journal :=
  { institutionId := auth.institutionId, type := .automatic, description, status := .posted,
    postingDate := now, postedAt := some now, postedById := some auth.userId,
    createdById := auth.userId, lines := lines.map fun l => l.stored }

/-- Write a posted journal and apply its lines. -/
def postJournal (auth : Auth) (now : DateTime) (description : String)
    (lines : List JournalLineInput) : Handler Id := do
  let journal ← createJournal (automaticJournal auth now description lines)
  applyLines lines
  return journal

def FinancialPeriodStatus.text : FinancialPeriodStatus → String
  | .opened => "OPEN"
  | .closed => "CLOSED"
  | .locked => "LOCKED"

/-- The check that today lies in an open period. -/
def requirePostablePeriod (institutionId : Id) (date : DateTime) : Handler Unit := do
  match ← findPostablePeriod institutionId date with
  | some (_, period) =>
    Proc.require (period.status = .opened)
      (.http 400 ("The financial period covering today is " ++ period.status.text ++ ", not open"))
  | none => Proc.fail (.http 400 "No financial period covers today's date")

/-- Both of two values, or neither. -/
def both {α β : Type} : Option α → Option β → Option (α × β)
  | some a, some b => some (a, b)
  | _, _ => none

theorem both_eq_some {α β : Type} {o : Option α} {o' : Option β} {r : α × β}
    (h : both o o' = some r) : o = some r.1 ∧ o' = some r.2 := by
  cases o with
  | none => exact absurd h nofun
  | some a =>
    cases o' with
    | none => exact absurd h nofun
    | some b =>
      cases Option.some.inj h
      exact ⟨rfl, rfl⟩

/-- A debit line and a credit line over one amount. -/
def doubleEntry (debited : Id × GLAccount) (credited : Id × GLAccount) (amount : ℚ) :
    List JournalLineInput :=
  [{ accountId := debited.1, debit := amount, credit := 0, category := debited.2.category },
    { accountId := credited.1, debit := 0, credit := amount, category := credited.2.category }]

/-- `Object.fromEntries(mappings.map((m) => [m.purpose, m.glAccountId]))`, at one
purpose: the last entry counts. -/
def accountIdByPurpose (mappings : List (Id × GLAccountMapping)) (purpose : String) : Option Id :=
  (mappings.reverse.find? fun m => m.2.purpose = purpose).map fun m => m.2.glAccountId

/-! ## The period of a posting -/

namespace Db

/-- The period that `findPostablePeriod` finds. -/
def postablePeriod? (s : Db) (institutionId : Id) (date : DateTime) : Option (Id × FinancialPeriod) :=
  (s.table .financialPeriod).entries.find? fun e =>
    decide (e.2.institutionId = institutionId ∧ e.2.startDate ≤ date ∧ date ≤ e.2.endDate)

/-- It is found, and it is open. -/
def Postable (s : Db) (institutionId : Id) (date : DateTime) : Prop :=
  ((s.postablePeriod? institutionId date).any fun p => p.2.status = .opened) = true

instance (s : Db) (institutionId : Id) (date : DateTime) :
    Decidable (s.Postable institutionId date) :=
  inferInstanceAs (Decidable (_ = true))

end Db

theorem run_findPostablePeriod_eq_ok {s t : Db} {institutionId : Id} {date : DateTime}
    {period : Option (Id × FinancialPeriod)}
    (h : (findPostablePeriod institutionId date).run s = (.ok period, t)) :
    period = s.postablePeriod? institutionId date ∧ s = t := by
  have hread : (Except.ok (s.postablePeriod? institutionId date), s) =
      ((.ok period, t) : Except Failure _ × Db) := h
  obtain ⟨hperiod, ht⟩ := Prod.mk.inj hread
  exact ⟨(Except.ok.inj hperiod).symm, ht⟩

/-! ## The outcome of the loop -/

/-- The effect of a line in cents. -/
def JournalLineInput.effectCents (line : JournalLineInput) : Cents := ofNumber line.effect

/-- What some lines do to the balance of an account. -/
def movementOf (lines : List JournalLineInput) (a : Id) : Cents :=
  (lines.map fun l => if l.accountId = a then l.effectCents else 0).sum

/-- An account whose balance has moved. -/
def GLAccount.addBalance (a : GLAccount) (x : Cents) : GLAccount :=
  { a with balance := a.balance + x }

namespace Db

/-- The balances after the lines have been applied. -/
def applyEffects (s : Db) : List JournalLineInput → Db
  | [] => s
  | l :: ls => (s.modify .gLAccount l.accountId fun a => a.addBalance l.effectCents).applyEffects ls

theorem table_applyEffects {m : Model} (h : m ≠ .gLAccount) (s : Db)
    (lines : List JournalLineInput) : (s.applyEffects lines).table m = s.table m := by
  induction lines generalizing s with
  | nil => rfl
  | cons l ls ih => rw [applyEffects, ih, table_modify_of_ne h]

theorem find?_applyEffects_of_ne {m : Model} (h : m ≠ .gLAccount) (s : Db)
    (lines : List JournalLineInput) (id : Id) :
    (s.applyEffects lines).find? m id = s.find? m id := by
  rw [find?, table_applyEffects h, find?]

/-- Account by account, the loop adds the movement of the lines. -/
theorem find?_applyEffects (s : Db) (lines : List JournalLineInput) (a : Id) :
    (s.applyEffects lines).find? .gLAccount a =
      (s.find? .gLAccount a).map fun account => account.addBalance (movementOf lines a) := by
  induction lines generalizing s with
  | nil => simp [applyEffects, movementOf, GLAccount.addBalance]
  | cons l ls ih =>
    rw [applyEffects, ih, find?_modify]
    by_cases h : a = l.accountId
    · subst h
      simp [movementOf, GLAccount.addBalance, Function.comp_def, add_assoc]
    · simp [movementOf, h, Ne.symm h]

end Db

/-! ## Categories and balances -/

namespace Db

variable {s : Db}

/-- The category of a ledger account. -/
def category? (s : Db) (a : Id) : Option GLAccountCategory :=
  (s.find? .gLAccount a).map fun account => account.category

/-- The stored balance of a ledger account. -/
def glBalance (s : Db) (a : Id) : Cents :=
  ((s.find? .gLAccount a).map fun account => account.balance).getD 0

theorem glBalance_congr {s' : Db} (h : s'.table .gLAccount = s.table .gLAccount) (g : Id) :
    s'.glBalance g = s.glBalance g := by
  unfold glBalance find?
  rw [h]

/-- Posting moves the balance of a ledger account by the movement of the lines. -/
theorem glBalance_applyEffects {g : Id} (h : (s.find? .gLAccount g).isSome)
    (lines : List JournalLineInput) :
    (s.applyEffects lines).glBalance g = s.glBalance g + movementOf lines g := by
  obtain ⟨account, haccount⟩ := Option.isSome_iff_exists.mp h
  rw [glBalance, glBalance, find?_applyEffects, haccount]
  rfl

theorem isSome_of_category? {g : Id} {category : GLAccountCategory}
    (h : s.category? g = some category) : (s.find? .gLAccount g).isSome := by
  obtain ⟨account, haccount, -⟩ := Option.map_eq_some_iff.mp h
  rw [haccount]
  rfl

end Db

theorem update_balance_eq (line : JournalLineInput) (a : GLAccount) :
    { a with balance := increment a.balance line.effect } = a.addBalance line.effectCents := by
  rw [increment_of_wholeCent line.wholeCent_effect]
  rfl

/-- The loop succeeds when the accounts are there. -/
theorem run_applyLines {s : Db} {lines : List JournalLineInput}
    (h : ∀ l ∈ lines, (s.find? .gLAccount l.accountId).isSome) :
    (applyLines lines).run s = (.ok (), s.applyEffects lines) := by
  induction lines generalizing s with
  | nil => rfl
  | cons l ls ih =>
    obtain ⟨a, ha⟩ := Option.isSome_iff_exists.mp (h l (List.mem_cons_self ..))
    have hstep : (update .gLAccount l.accountId fun a : Row .gLAccount =>
        { a with balance := increment a.balance l.effect }).run s =
          (.ok (a.addBalance l.effectCents),
            s.modify .gLAccount l.accountId fun a => a.addBalance l.effectCents) := by
      rw [run_update, ha]
      simp only [update_balance_eq]
    have hrest : ∀ l' ∈ ls, ((s.modify .gLAccount l.accountId fun a =>
        a.addBalance l.effectCents).find? .gLAccount l'.accountId).isSome := by
      intro l' hl'
      rw [Db.find?_modify]
      split
      · rw [Option.isSome_map]
        exact h l' (List.mem_cons_of_mem l hl')
      · exact h l' (List.mem_cons_of_mem l hl')
    rw [applyLines, Proc.forEach_cons, Proc.bind_assoc, Proc.run_bind_ok hstep]
    exact ih hrest

theorem run_createJournal {s : Db} {journal : Journal}
    (h : ∀ l ∈ journal.lines, (s.find? .gLAccount l.accountId).isSome) :
    (createJournal journal).run s = (.ok (s.nextId .journal), s.insert .journal journal) := by
  rw [createJournal, createJournalAs, Proc.run_attempt, if_pos h]

theorem run_createJournal_eq_ok {s s' : Db} {journal : Journal} {id : Id}
    (h : (createJournal journal).run s = (.ok id, s')) :
    (∀ l ∈ journal.lines, (s.find? .gLAccount l.accountId).isSome) ∧
      id = s.nextId .journal ∧ s' = s.insert .journal journal := by
  rw [createJournal, createJournalAs, Proc.run_attempt] at h
  split at h
  · next hlines =>
    obtain ⟨hr, hs⟩ := Prod.mk.inj h
    exact ⟨hlines, (Except.ok.inj hr).symm, hs.symm⟩
  · exact absurd (congrArg Prod.fst h) nofun

/-- A posting that succeeds finds all accounts, writes the journal and moves the
balances. -/
theorem run_postJournal_eq_ok {s s' : Db} {auth : Auth} {now : DateTime} {description : String}
    {lines : List JournalLineInput} {id : Id}
    (h : (postJournal auth now description lines).run s = (.ok id, s')) :
    (∀ l ∈ lines, (s.find? .gLAccount l.accountId).isSome) ∧ id = s.nextId .journal ∧
      s' = (s.insert .journal (automaticJournal auth now description lines)).applyEffects
        lines := by
  obtain ⟨journal, t, hjournal, h⟩ := Proc.run_bind_eq_ok h
  obtain ⟨hlines, rfl, rfl⟩ := run_createJournal_eq_ok hjournal
  have haccounts : ∀ l ∈ lines, (s.find? .gLAccount l.accountId).isSome := by
    intro l hl
    exact hlines l.stored (List.mem_map_of_mem hl)
  have hkept : ∀ l ∈ lines, ((s.insert .journal
      (automaticJournal auth now description lines)).find? .gLAccount l.accountId).isSome := by
    intro l hl
    rw [Db.find?_insert_of_ne (by decide)]
    exact haccounts l hl
  have happly := run_applyLines hkept
  rw [Proc.run_bind_ok happly] at h
  obtain ⟨hr, hs⟩ := Prod.mk.inj h
  exact ⟨haccounts, (Except.ok.inj hr).symm, hs.symm⟩

end NexusEfos
