/-
The steps of a posting.

A path that posts inside a transaction leaves the balances in line with the journals at
every moment.  One that writes the journal first and applies its lines in a loop owes them
in between, and `ledgerProtocol` keeps the account of what it owes.  The rules of this file
are those with which a path is gone through; `KeepsLedger` is what is said of it.
-/
import NexusEfos.Ledger.Applied

namespace NexusEfos

open Proc

/-! ## What a posting leaves alone -/

/-- The tables on which a posting or a request for one depends. -/
def ledgerTables : List Model := [.gLAccount, .journal, .approvalRequest, .recurringJournal]

/-- Accounts keep their categories, journals stay as they are, nobody asks for a posting,
and the templates of recurring journals are the same. -/
structure Db.LedgerKept (s t : Db) : Prop where
  category : ∀ a, t.category? a = s.category? a
  journal : ∀ id j, s.find? .journal id = some j → t.find? .journal id = some j
  request : ∀ id r, t.find? .approvalRequest id = some r → r.type = .journalPosting →
    s.find? .approvalRequest id = some r
  template : ∀ id r, t.find? .recurringJournal id = some r →
    ∃ r₀, s.find? .recurringJournal id = some r₀ ∧ r.lineTemplate = r₀.lineTemplate

/-- The lines are on accounts of the categories they were made for. -/
def Db.Categorised (s : Db) (lines : List JournalLineInput) : Prop :=
  ∀ l ∈ lines, s.category? l.accountId = some l.category

namespace Db.LedgerKept

variable {s t u : Db}

theorem refl (s : Db) : s.LedgerKept s :=
  ⟨fun _ => rfl, fun _ _ h => h, fun _ _ h _ => h, fun _ r h => ⟨r, h, rfl⟩⟩

theorem trans (h : s.LedgerKept t) (h' : t.LedgerKept u) : s.LedgerKept u where
  category := fun a => (h'.category a).trans (h.category a)
  journal := fun id j hj => h'.journal id j (h.journal id j hj)
  request := fun id r hr hposting => h.request id r (h'.request id r hr hposting) hposting
  template := fun id r hr => by
    obtain ⟨r₁, hr₁, hlines⟩ := h'.template id r hr
    obtain ⟨r₀, hr₀, hlines₁⟩ := h.template id r₁ hr₁
    exact ⟨r₀, hr₀, hlines.trans hlines₁⟩

theorem of_agree (h : s.Agree ledgerTables t) : s.LedgerKept t where
  category := Db.category?_congr (h _ (by decide))
  journal := fun id j hj => by rwa [h.find? (by decide)]
  request := fun id r hr _ => by rwa [h.find? (by decide)] at hr
  template := fun id r hr => ⟨r, by rwa [h.find? (by decide)] at hr, rfl⟩

theorem categorised {lines : List JournalLineInput} (h : s.LedgerKept t)
    (hlines : s.Categorised lines) : t.Categorised lines :=
  fun l hl => (h.category _).trans (hlines l hl)

/-- A new journal leaves the others alone. -/
theorem insert_journal (s : Db) (j : Journal) : s.LedgerKept (s.insert .journal j) where
  category := Db.category?_congr (Db.table_insert_of_ne (by decide) _ _)
  journal := fun id j' hj' => by
    have hid : id ≠ s.nextId .journal := by
      intro heq
      have hnone : s.find? .journal (s.nextId .journal) = none := OrderedMap.get?_nextKey _
      rw [heq, hnone] at hj'
      exact absurd hj' nofun
    rw [Db.find?_insert, if_neg hid]
    exact hj'
  request := fun id r hr _ => by rwa [Db.find?_insert_of_ne (by decide)] at hr
  template := fun id r hr => ⟨r, by rwa [Db.find?_insert_of_ne (by decide)] at hr, rfl⟩

theorem applyEffects (s : Db) (lines : List JournalLineInput) : s.LedgerKept (s.applyEffects lines) where
  category := s.category?_applyEffects lines
  journal := fun id j hj => by rwa [Db.find?_applyEffects_of_ne (by decide)]
  request := fun id r hr _ => by rwa [Db.find?_applyEffects_of_ne (by decide)] at hr
  template := fun id r hr => ⟨r, by rwa [Db.find?_applyEffects_of_ne (by decide)] at hr, rfl⟩

/-- A request for something else than a posting. -/
theorem insert_request (s : Db) {r : ApprovalRequest} (hr : r.type ≠ .journalPosting) :
    s.LedgerKept (s.insert .approvalRequest r) where
  category := Db.category?_congr (Db.table_insert_of_ne (by decide) _ _)
  journal := fun id j hj => by rwa [Db.find?_insert_of_ne (by decide)]
  request := fun id r' hr' hposting => by
    rw [Db.find?_insert] at hr'
    by_cases hid : id = s.nextId .approvalRequest
    · rw [if_pos hid] at hr'
      rw [← Option.some.inj hr'] at hposting
      exact absurd hposting hr
    · rwa [if_neg hid] at hr'
  template := fun id r hr => ⟨r, by rwa [Db.find?_insert_of_ne (by decide)] at hr, rfl⟩

/-- A recurring journal that keeps its template. -/
theorem modify_recurring (s : Db) (id : Id) {f : RecurringJournal → RecurringJournal}
    (hf : ∀ r, (f r).lineTemplate = r.lineTemplate) :
    s.LedgerKept (s.modify .recurringJournal id f) where
  category := Db.category?_congr (Db.table_modify_of_ne (by decide) _ _ _)
  journal := fun id j hj => by rwa [Db.find?_modify_of_ne (by decide)]
  request := fun id r hr _ => by rwa [Db.find?_modify_of_ne (by decide)] at hr
  template := fun id' r hr => by
    rw [Db.find?_modify] at hr
    by_cases hid : id' = id
    · rw [if_pos hid] at hr
      obtain ⟨r₀, hr₀, rfl⟩ := Option.map_eq_some_iff.mp hr
      exact ⟨r₀, hr₀, hf r₀⟩
    · rw [if_neg hid] at hr
      exact ⟨r, hr, rfl⟩

end Db.LedgerKept

/-! ## What a posting does -/

/-- The balances stay in line with the posted journals. -/
structure Db.Settles (allowed : List JournalLineInput → Prop) (s t : Db) : Prop where
  kept : s.LedgerKept t
  applied : ∀ base origin left, Applied allowed base s origin left →
    ∃ origin', Applied allowed base t origin' left

namespace Db.Settles

variable {allowed : List JournalLineInput → Prop} {s t u : Db} {lines : List JournalLineInput}

theorem trans (h : s.Settles allowed t) (h' : t.Settles allowed u) : s.Settles allowed u where
  kept := h.kept.trans h'.kept
  applied := fun base origin left happlied => by
    obtain ⟨origin', happlied'⟩ := h.applied base origin left happlied
    exact h'.applied base origin' left happlied'

theorem of_agree (h : s.Agree ledgerTables t) : s.Settles allowed t where
  kept := .of_agree h
  applied := fun _ origin _ happlied => ⟨origin, happlied.congr (h.mono (by decide))⟩

theorem refl (s : Db) : s.Settles allowed s := of_agree (Db.Agree.refl s)

/-- A change that the balances and the journals do not notice. -/
theorem of_kept (h : s.LedgerKept t) (hsame : s.Agree [.gLAccount, .journal] t) :
    s.Settles allowed t where
  kept := h
  applied := fun _ origin _ happlied => ⟨origin, happlied.congr hsame⟩

/-- A journal and all its lines. -/
theorem post {j : Journal} (hposted : j.status = .posted)
    (hstored : j.lines = lines.map fun l => l.stored) (hlines : s.Categorised lines)
    (hallowed : allowed lines) :
    s.Settles allowed ((s.insert .journal j).applyEffects lines) where
  kept := (LedgerKept.insert_journal s j).trans (LedgerKept.applyEffects _ lines)
  applied := fun base origin left happlied => by
    have hjournal := happlied.post hposted ⟨hstored, hlines, hallowed⟩
    have hleft : unapplied lines = unapplied (lines ++ []) := by rw [List.append_nil]
    rw [hleft] at hjournal
    have hloop := hjournal.applyEffects ((LedgerKept.insert_journal s j).categorised hlines)
    rw [unapplied_nil, add_zero] at hloop
    exact ⟨_, hloop⟩

/-- A journal that is not posted. -/
theorem draft {j : Journal} (hdraft : j.status ≠ .posted) :
    s.Settles allowed (s.insert .journal j) where
  kept := LedgerKept.insert_journal s j
  applied := fun _ origin _ happlied => by
    have haccounts : (s.insert .journal j).table .gLAccount = s.table .gLAccount :=
      Db.table_insert_of_ne (by decide) _ _
    refine ⟨origin, ?_, ?_⟩
    · intro id j' hj' hposted
      rw [Db.find?_insert] at hj'
      by_cases hid : id = s.nextId .journal
      · rw [if_pos hid] at hj'
        rw [← Option.some.inj hj'] at hposted
        exact absurd hposted hdraft
      · rw [if_neg hid] at hj'
        exact (happlied.lines id j' hj' hposted).congr (Db.category?_congr haccounts)
    · intro a
      rw [Db.glBalance_congr haccounts, Db.table_insert_self, OrderedMap.total_create,
        if_neg hdraft, add_zero]
      exact happlied.balance a

end Db.Settles

/-- What a process settles when it succeeds, if its lines are on the accounts they were made
for. -/
def Posts {α : Type} (allowed : List JournalLineInput → Prop) (lines : List JournalLineInput)
    (p : Handler α) : Prop :=
  ∀ s a t, s.Categorised lines → p.run s = (.ok a, t) → s.Settles allowed t

namespace Posts

variable {α β : Type} {allowed : List JournalLineInput → Prop} {lines : List JournalLineInput}

theorem bind {p : Handler α} {f : α → Handler β} (hp : Posts allowed lines p)
    (hf : ∀ a, Posts allowed lines (f a)) : Posts allowed lines (p >>= f) := by
  intro s b u hlines hrun
  obtain ⟨a, t, hfirst, hrest⟩ := run_bind_eq_ok hrun
  have hsettles := hp s a t hlines hfirst
  exact hsettles.trans (hf a t b u (hsettles.kept.categorised hlines) hrest)

theorem of_quiet {p : Handler α} (hp : Quiet ledgerTables p) : Posts allowed lines p := by
  intro s a t _ hrun
  have hagree := hp.run s
  rw [hrun] at hagree
  exact .of_agree hagree

theorem postJournal (hallowed : allowed lines) (auth : Auth) (now : DateTime)
    (description : String) : Posts allowed lines (postJournal auth now description lines) := by
  intro s id t hlines hrun
  obtain ⟨-, -, rfl⟩ := run_postJournal_eq_ok hrun
  exact .post rfl rfl hlines hallowed

end Posts

/-! ## The protocol -/

/-- The lines a statement posts move no balance. -/
def Access.MovesNothing (lab : Access) (s : Db) : Prop :=
  ∀ l ∈ lab.posts, ∀ category ∈ s.category? l.accountId,
    balanceEffect category l.debit l.credit = 0

instance (lab : Access) (s : Db) : Decidable (lab.MovesNothing s) :=
  inferInstanceAs (Decidable (∀ l ∈ lab.posts, ∀ category ∈ s.category? l.accountId,
    balanceEffect category l.debit l.credit = 0))

/-- The debt of a process is the effects of the lines that it has posted and not applied. -/
def ledgerProtocol (allowed : List JournalLineInput → Prop) :
    Protocol Access Db (Multiset (Id × Cents)) where
  rely := Db.LedgerKept
  guar lab s d t d' :=
    (∀ base origin others, Applied allowed base s origin (others + d) →
      ∃ origin', Applied allowed base t origin' (others + d')) ∧
    (lab.MovesNothing s → d = 0 → d' = 0)
  refl := Db.LedgerKept.refl
  trans := Db.LedgerKept.trans

theorem ledgerProtocol_settles {allowed : List JournalLineInput → Prop} {s t : Db}
    (lab : Access) (d : Multiset (Id × Cents)) (h : s.Settles allowed t) :
    (ledgerProtocol allowed).rely s t ∧ (ledgerProtocol allowed).guar lab s d t d :=
  ⟨h.kept, fun base origin others happlied => h.applied base origin (others + d) happlied,
    fun _ hd => hd⟩

theorem ledgerProtocol_watches (allowed : List JournalLineInput → Prop) :
    (ledgerProtocol allowed).Watches ledgerTables :=
  fun lab _ _ d h => ledgerProtocol_settles lab d (.of_agree h)

/-- A process that owes nothing at its beginning and nothing at its end. -/
def KeepsLedger {α : Type} (allowed : List JournalLineInput → Prop) (s : Db) (p : Handler α) :
    Prop :=
  p.Follows (ledgerProtocol allowed) (fun _ d _ => d = 0) s 0

theorem KeepsLedger.bind {α β : Type} {allowed : List JournalLineInput → Prop} {s : Db}
    {p : Handler α} {k : α → Handler β} (hp : KeepsLedger allowed s p)
    (hk : ∀ t a, KeepsLedger allowed t (k a)) : KeepsLedger allowed s (p >>= k) := by
  refine Follows.bind hp ?_ fun _ _ _ hd => hd
  intro t d a hd
  rw [hd]
  exact hk t a

section Rules

variable {α β : Type} {allowed : List JournalLineInput → Prop} {s : Db}
  {Q : Db → Multiset (Id × Cents) → Except Failure α → Prop} {d : Multiset (Id × Cents)}

/-- A transaction that posts. -/
theorem follows_posts {lab : Access} {body : Handler β} {k : β → Handler α}
    {lines : List JournalLineInput} (hbody : Posts allowed lines body)
    (hlines : s.Categorised lines) (hk : ∀ t b, s.LedgerKept t →
      (k b).Follows (ledgerProtocol allowed) Q t d) (herr : ∀ t e, Q t d (.error e)) :
    (transaction lab body >>= k).Follows (ledgerProtocol allowed) Q s d := by
  refine Follows.transaction ?_ ?_
  · intro t b t' ht hrun
    have hsettles := hbody t b t' (ht.categorised hlines) hrun
    obtain ⟨hrely, hguar⟩ := ledgerProtocol_settles lab d hsettles
    exact ⟨d, hrely, hguar, hk t' b (Db.LedgerKept.trans ht hsettles.kept)⟩
  · intro t e _
    exact ⟨(ledgerProtocol_settles _ d (.refl t)).2, herr t e⟩

/-- The two accounts of a journal are read before it is posted. -/
theorem follows_twoAccounts {i j : Id} {k : GLAccount → GLAccount → Handler α}
    (hk : ∀ t A B, s.LedgerKept t → t.category? i = some A.category →
      t.category? j = some B.category → (k A B).Follows (ledgerProtocol allowed) Q t d)
    (herr : ∀ t e, Q t d (.error e)) :
    (findUniqueOrThrow .gLAccount i >>= fun A => findUniqueOrThrow .gLAccount j >>= fun B =>
      k A B).Follows (ledgerProtocol allowed) Q s d := by
  have hW := ledgerProtocol_watches allowed
  refine hW.findUniqueOrThrow ?_ fun t => herr t _
  intro s₁ A h₁ hA
  refine hW.findUniqueOrThrow ?_ fun t => herr t _
  intro s₂ B h₂ hB
  refine hk s₂ A B (Db.LedgerKept.trans h₁ h₂) ?_ ?_
  · rw [h₂.category, Db.category?, hA]
    rfl
  · rw [Db.category?, hB]
    rfl

theorem categorised_doubleEntry {i j : Id} {A B : GLAccount}
    (hA : s.category? i = some A.category) (hB : s.category? j = some B.category) (x : ℚ) :
    s.Categorised (doubleEntry (i, A) (j, B) x) := by
  intro l hl
  rcases List.mem_cons.mp hl with rfl | hl
  · exact hA
  · rw [List.mem_singleton.mp hl]
    exact hB

/-- The lines with the categories of their accounts.  An account that does not exist is
given any category. -/
def Db.categorise (s : Db) (lines : List LineInput) : List JournalLineInput :=
  lines.map fun l => l.withCategory ((s.category? l.accountId).getD .asset)

theorem Db.categorised_categorise {lines : List LineInput}
    (h : ∀ l ∈ lines, (s.find? .gLAccount l.accountId).isSome) :
    s.Categorised (s.categorise lines) := by
  intro l hl
  obtain ⟨l', hl', rfl⟩ := List.mem_map.mp hl
  obtain ⟨account, haccount⟩ := Option.isSome_iff_exists.mp (h l' hl')
  show s.category? l'.accountId = some ((s.category? l'.accountId).getD .asset)
  rw [category?, haccount]
  rfl

theorem Db.stored_categorise (lines : List LineInput) :
    (s.categorise lines).map (fun l => l.stored) = lines.map LineInput.stored := by
  unfold categorise
  rw [List.map_map]
  rfl

theorem Db.LedgerKept.categorise {t : Db} (h : s.LedgerKept t) (lines : List LineInput) :
    t.categorise lines = s.categorise lines := by
  unfold Db.categorise
  simp only [h.category]

theorem unapplied_categorise_of_movesNothing {lab : Access}
    (hlines : ∀ l ∈ lab.posts, (s.find? .gLAccount l.accountId).isSome)
    (h : lab.MovesNothing s) : unapplied (s.categorise lab.posts) = 0 := by
  rw [unapplied_eq_zero]
  intro l hl
  obtain ⟨l', hl', rfl⟩ := List.mem_map.mp hl
  obtain ⟨account, haccount⟩ := Option.isSome_iff_exists.mp (hlines l' hl')
  have hcategory : s.category? l'.accountId = some account.category := by
    rw [Db.category?, haccount]
    rfl
  have heffect := h l' hl' _ hcategory
  show ofNumber (balanceEffect ((s.category? l'.accountId).getD .asset) l'.debit l'.credit) = 0
  rw [hcategory, Option.getD_some, heffect, ofNumber_zero]

/-- The loop that applies the lines of a journal pays the debt line by line. -/
theorem follows_applyLinesById {accountById : Id → Option GLAccount} {lines : List LineInput}
    {k : Unit → Handler α} (haccounts : ∀ l ∈ lines, ∃ account,
      accountById l.accountId = some account ∧ s.category? l.accountId = some account.category)
    (hk : ∀ t, s.LedgerKept t → (k ()).Follows (ledgerProtocol allowed) Q t d) :
    (applyLinesById accountById lines >>= k).Follows (ledgerProtocol allowed) Q s
      (d + unapplied (s.categorise lines)) := by
  induction lines generalizing s with
  | nil =>
    have hnone : unapplied (s.categorise []) = 0 := rfl
    rw [hnone, add_zero]
    exact hk s (.refl s)
  | cons l ls ih =>
    obtain ⟨account, haccount, hcategory⟩ := haccounts l (List.mem_cons_self ..)
    unfold applyLinesById
    rw [forEach_cons, bind_assoc, haccount, orFail_some, done_ok_bind, bind_assoc]
    intro t ht
    have hcategory' : t.category? l.accountId = some account.category :=
      (ht.category _).trans hcategory
    obtain ⟨row, hrow⟩ := Option.isSome_iff_exists.mp (Db.isSome_of_category? hcategory')
    have hline : s.categorise (l :: ls) = l.withCategory account.category :: s.categorise ls := by
      unfold Db.categorise
      rw [List.map_cons, hcategory]
      rfl
    have hcategorised : t.Categorised [l.withCategory account.category] := by
      intro l' hl'
      rw [List.mem_singleton.mp hl']
      exact hcategory'
    have heffect : (t.modify .gLAccount l.accountId fun a : GLAccount =>
        { a with balance := increment a.balance (balanceEffect account.category l.debit l.credit) }) =
          t.applyEffects [l.withCategory account.category] :=
      congrArg (t.modify .gLAccount l.accountId)
        (funext (update_balance_eq (l.withCategory account.category)))
    simp only [hrow]
    rw [heffect, hline]
    have hkept := Db.LedgerKept.applyEffects t [l.withCategory account.category]
    refine ⟨d + unapplied (s.categorise ls), hkept, ⟨?_, ?_⟩, ?_⟩
    · intro base origin others happlied
      rw [← add_assoc] at happlied ⊢
      exact ⟨origin, happlied.applyEffects hcategorised⟩
    · intro _ hzero
      rw [unapplied_cons] at hzero
      have hcard := congrArg Multiset.card hzero
      simp only [Multiset.card_add, Multiset.card_zero, Nat.add_eq_zero_iff, Multiset.card_eq_zero]
        at hcard
      rw [hcard.1, hcard.2.2, add_zero]
    · have hkept' := Db.LedgerKept.trans ht hkept
      rw [← hkept'.categorise ls]
      refine ih ?_ fun u hu => hk u (Db.LedgerKept.trans hkept' hu)
      intro l' hl'
      obtain ⟨account', haccount', hcategory₁⟩ := haccounts l' (List.mem_cons_of_mem l hl')
      exact ⟨account', haccount', (hkept'.category _).trans hcategory₁⟩

/-- A journal that is posted before its lines are applied. -/
theorem follows_postBare {lab : Access} {j : Journal} {accountById : Id → Option GLAccount}
    {k : Id → Handler α} (hposted : j.status = .posted)
    (hstored : j.lines = lab.posts.map LineInput.stored)
    (hallowed : allowed (s.categorise lab.posts))
    (haccounts : ∀ a, (accountById a).map GLAccount.category = s.category? a)
    (hk : ∀ t id, s.LedgerKept t → (k id).Follows (ledgerProtocol allowed) Q t 0)
    (herr : ∀ t e, Q t 0 (.error e)) :
    (createJournalAs lab j >>= fun id => applyLinesById accountById lab.posts >>= fun _ =>
      k id).Follows (ledgerProtocol allowed) Q s 0 := by
  intro t ht
  have hkept : s.LedgerKept t := ht
  by_cases hlines : ∀ l ∈ j.lines, (t.find? .gLAccount l.accountId).isSome
  · simp only [if_pos hlines]
    have hfound : ∀ l ∈ lab.posts, (t.find? .gLAccount l.accountId).isSome := by
      intro l hl
      refine hlines l.stored ?_
      rw [hstored]
      exact List.mem_map_of_mem hl
    have hlinesOf : LinesOf allowed t j (t.categorise lab.posts) := by
      refine ⟨?_, Db.categorised_categorise hfound, ?_⟩
      · rw [hstored, Db.stored_categorise]
      · rwa [hkept.categorise]
    have hinsert := Db.LedgerKept.insert_journal t j
    refine ⟨unapplied (t.categorise lab.posts), hinsert, ⟨?_, ?_⟩, ?_⟩
    · intro base origin others happlied
      rw [add_zero] at happlied
      exact ⟨_, happlied.post hposted hlinesOf⟩
    · intro hnothing _
      exact unapplied_categorise_of_movesNothing hfound hnothing
    · rw [← hinsert.categorise, ← zero_add (unapplied _)]
      refine follows_applyLinesById ?_ fun u hu => hk u _ (hkept.trans (hinsert.trans hu))
      intro l hl
      obtain ⟨account, haccount⟩ := Option.isSome_iff_exists.mp (hfound l hl)
      have hcategory : t.category? l.accountId = some account.category := by
        rw [Db.category?, haccount]
        rfl
      have hread := haccounts l.accountId
      rw [← hkept.category, hcategory] at hread
      obtain ⟨account', haccount', heq⟩ := Option.map_eq_some_iff.mp hread
      refine ⟨account', haccount', ?_⟩
      rw [hinsert.category, hcategory, heq]
  · simp only [if_neg hlines]
    exact ⟨0, Db.LedgerKept.refl t, (ledgerProtocol_settles lab 0 (.refl t)).2, herr t _⟩

end Rules

end NexusEfos
