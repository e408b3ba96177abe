/-
The approval of a posting.

An approved journal is checked once more, on the amounts as they are stored, and is rejected
if they do not balance.  So the accounts on the debit side and those on the credit side move
by the same amount, whatever the rounding of the columns has done to the lines
(`manualJournal_keeps_level`).
-/
import NexusEfos.Approvals.ExactlyOnce
import NexusEfos.Ledger.Applied
import NexusEfos.Ledger.ManualJournals

namespace NexusEfos

open DoubleEntry

/-! ## What an approval does -/

/-- Each element of a list is mapped to something. -/
theorem forall₂_of_mapM {α β : Type} {f : α → Option β} {xs : List α} {ys : List β}
    (h : xs.mapM f = some ys) : List.Forall₂ (fun x y => f x = some y) xs ys := by
  induction xs generalizing ys with
  | nil =>
    have hys : ys = [] := (Option.some.inj h).symm
    rw [hys]
    exact .nil
  | cons x xs ih =>
    rw [List.mapM_cons] at h
    obtain ⟨y, hy, hrest⟩ := Option.bind_eq_some_iff.mp h
    obtain ⟨zs, hzs, hcons⟩ := Option.bind_eq_some_iff.mp hrest
    rw [← Option.some.inj hcons]
    exact .cons hy (ih hzs)

section Run

variable {s t : Db} {now : DateTime} {approvedById journalId : Id}

/-- The lines of a journal with their accounts. -/
theorem Db.forall₂_of_withAccounts {lines : List JournalLine}
    {found : List (JournalLine × GLAccount)} (h : s.withAccounts lines = some found) :
    found.map Prod.fst = lines ∧
      ∀ l ∈ found, s.find? .gLAccount l.1.accountId = some l.2 := by
  have hforall := forall₂_of_mapM h
  clear h
  induction hforall with
  | nil => exact ⟨rfl, fun l hl => absurd hl List.not_mem_nil⟩
  | cons hline _ ih =>
    obtain ⟨account, haccount, hpair⟩ := Option.map_eq_some_iff.mp hline
    rw [← hpair]
    refine ⟨congrArg (List.cons _) ih.1, ?_⟩
    intro l hl
    rcases List.mem_cons.mp hl with rfl | hl
    · exact haccount
    · exact ih.2 l hl

/-- The lines of a journal that is posted as they are applied. -/
def inputsOf (found : List (JournalLine × GLAccount)) : List JournalLineInput :=
  found.map fun l => l.1.input l.2.category

/-- The journal after its posting. -/
def Journal.post (j : Journal) (approvedById : Id) (now : DateTime) : Journal :=
  { j with status := .posted, postedById := some approvedById, postedAt := some now }

/-- The journal after its rejection. -/
def Journal.reject (j : Journal) (reason : String) : Journal :=
  { j with status := .rejected, rejectionReason := some reason }

/-- Nothing speaks against a posting whose lines balance, on active accounts and in an open
period. -/
theorem rejectionReasons_eq_nil {stillBalanced allActive : Bool}
    {period : Option (Id × FinancialPeriod)}
    (h : rejectionReasons stillBalanced allActive period = []) :
    stillBalanced = true ∧ allActive = true ∧
      (period.any fun p => p.2.status = .opened) = true := by
  unfold rejectionReasons at h
  obtain ⟨hreasons, hperiod⟩ := List.append_eq_nil_iff.mp h
  obtain ⟨hbalanced, hactive⟩ := List.append_eq_nil_iff.mp hreasons
  refine ⟨?_, ?_, ?_⟩
  · by_contra hnot
    rw [if_neg hnot] at hbalanced
    exact absurd hbalanced (List.cons_ne_nil _ _)
  · by_contra hnot
    rw [if_neg hnot] at hactive
    exact absurd hactive (List.cons_ne_nil _ _)
  · cases period with
    | none => exact absurd hperiod (List.cons_ne_nil _ _)
    | some p =>
      by_contra hnot
      have hopened : ¬ p.2.status = .opened := fun heq => hnot (decide_eq_true heq)
      simp only [if_neg hopened] at hperiod
      exact absurd hperiod (List.cons_ne_nil _ _)

/-- An approved journal is applied and posted if its stored lines balance, its accounts are
active and its date lies in an open period, and rejected otherwise. -/
theorem run_postApprovedJournal_eq_ok {u : Unit}
    (h : (postApprovedJournal now approvedById journalId).run s = (.ok u, t)) :
    ∃ j found, s.find? .journal journalId = some j ∧ found.map Prod.fst = j.lines ∧
      (∀ l ∈ found, s.find? .gLAccount l.1.accountId = some l.2) ∧
      (isBalanced (j.lines.map JournalLine.amounts) = true ∧
          (∀ l ∈ found, l.2.status = .active) ∧ s.Postable j.institutionId j.postingDate ∧
          t = (s.applyEffects (inputsOf found)).modify .journal journalId
            (fun j => j.post approvedById now) ∨
        ∃ reason, t = s.modify .journal journalId fun j => j.reject reason) := by
  obtain ⟨⟨j, found⟩, s₁, hfind, h₁⟩ := Proc.run_bind_eq_ok h
  obtain ⟨answer, s₂, hread, hsome⟩ := Proc.run_bind_eq_ok hfind
  obtain ⟨hanswer, hs₂⟩ := Prod.mk.inj hread
  obtain ⟨hpair, hs₁⟩ := run_orFail_eq_ok hsome
  rw [← Except.ok.inj hanswer] at hpair
  obtain ⟨j', hj', hlines⟩ := Option.bind_eq_some_iff.mp hpair
  obtain ⟨found', hfound', heq⟩ := Option.map_eq_some_iff.mp hlines
  obtain ⟨rfl, rfl⟩ := Prod.mk.inj heq
  obtain ⟨hfst, haccounts⟩ := Db.forall₂_of_withAccounts hfound'
  obtain ⟨period, s₃, hread, h₂⟩ := Proc.run_bind_eq_ok h₁
  obtain ⟨hperiod, hs₃⟩ := run_findPostablePeriod_eq_ok hread
  have hsame : s₁ = s := hs₁.trans hs₂.symm
  rw [← hs₃, hsame, hperiod, hsame] at h₂
  refine ⟨j', found', hj', hfst, haccounts, ?_⟩
  have hamounts : (found'.map fun l => l.1.amounts) = j'.lines.map JournalLine.amounts := by
    rw [← hfst, List.map_map]
    rfl
  dsimp only at h₂
  rw [hamounts] at h₂
  split at h₂
  · next hreasons =>
    left
    obtain ⟨hbalanced, hactive, hpostable⟩ := rejectionReasons_eq_nil hreasons
    have hfoundAll : ∀ l ∈ inputsOf found', (s.find? .gLAccount l.accountId).isSome := by
      intro l hl
      obtain ⟨l', hl', rfl⟩ := List.mem_map.mp hl
      rw [show (l'.1.input l'.2.category).accountId = l'.1.accountId from rfl, haccounts l' hl']
      rfl
    obtain ⟨_, s₄, happly, h₃⟩ := Proc.run_bind_eq_ok h₂
    have hs₄ : s₄ = s.applyEffects (inputsOf found') :=
      (congrArg Prod.snd ((run_applyLines hfoundAll).symm.trans happly)).symm
    obtain ⟨row, s₅, hupdate, h₄⟩ := Proc.run_bind_eq_ok h₃
    obtain ⟨_, -, -, hs₅⟩ := run_update_eq_ok hupdate
    refine ⟨hbalanced, ?_, hpostable, ?_⟩
    · intro l hl
      exact of_decide_eq_true (List.all_eq_true.mp hactive l hl)
    · rw [← (Prod.mk.inj h₄).2, hs₅, hs₄]
      rfl
  · right
    obtain ⟨row, s₄, hupdate, h₃⟩ := Proc.run_bind_eq_ok h₂
    obtain ⟨_, -, -, hs₄⟩ := run_update_eq_ok hupdate
    exact ⟨_, (Prod.mk.inj h₃).2.symm.trans hs₄⟩

end Run

/-! ## The two sides of the ledger -/

/-- The balances of the accounts that grow on a side, added up. -/
def Db.sideTotal (s : Db) (side : Side) : Cents :=
  (s.table .gLAccount).total fun _ a => if a.category.side = side then a.balance else 0

/-- The accounts on the debit side hold as much as those on the credit side. -/
def Db.Level (s : Db) : Prop := s.sideTotal .debit = s.sideTotal .credit

instance (s : Db) : Decidable s.Level :=
  inferInstanceAs (Decidable (s.sideTotal .debit = s.sideTotal .credit))

/-- All balances, each with the sign of its side. -/
def Db.imbalance (s : Db) : Cents :=
  (s.table .gLAccount).total fun _ a => a.category.side.sign a.balance

namespace Db

variable {s t : Db}

theorem imbalance_eq (s : Db) : s.imbalance = s.sideTotal .debit - s.sideTotal .credit := by
  have hsum : s.imbalance + s.sideTotal .credit = s.sideTotal .debit := by
    unfold imbalance sideTotal
    rw [← OrderedMap.total_add]
    refine OrderedMap.total_congr fun _ a _ => ?_
    cases a.category.side with
    | debit => simp [Side.sign]
    | credit => simp [Side.sign]
  rw [← hsum, add_sub_cancel_right]

theorem level_iff : s.Level ↔ s.imbalance = 0 := by
  rw [imbalance_eq, sub_eq_zero]
  rfl

theorem Level.congr (h : s.Level) (hsame : t.table .gLAccount = s.table .gLAccount) : t.Level := by
  unfold Level sideTotal at h ⊢
  rw [hsame]
  exact h

/-- Lines move the difference of the sides by their effects. -/
theorem imbalance_applyEffects {lines : List JournalLineInput} (s : Db)
    (h : ∀ l ∈ lines, s.category? l.accountId = some l.category) :
    (s.applyEffects lines).imbalance =
      s.imbalance + (lines.map fun l => l.category.side.sign l.effectCents).sum := by
  induction lines generalizing s with
  | nil => exact (add_zero _).symm
  | cons l ls ih =>
    have hl := h l (List.mem_cons_self ..)
    obtain ⟨account, haccount, hcategory⟩ := Option.map_eq_some_iff.mp hl
    have hstep : (s.modify .gLAccount l.accountId fun a => a.addBalance l.effectCents).imbalance =
        s.imbalance + l.category.side.sign l.effectCents := by
      unfold imbalance
      rw [table_modify_self, OrderedMap.total_modify_of_some haccount]
      have hsign : (account.addBalance l.effectCents).category.side.sign
          (account.addBalance l.effectCents).balance =
            account.category.side.sign account.balance +
              account.category.side.sign l.effectCents := Side.sign_add _ _ _
      rw [hsign, add_sub_cancel_left, hcategory]
    have hrest : ∀ l' ∈ ls, (s.modify .gLAccount l.accountId fun a =>
        a.addBalance l.effectCents).category? l'.accountId = some l'.category := by
      intro l' hl'
      have hkept := s.category?_applyEffects [l] l'.accountId
      exact hkept.trans (h l' (List.mem_cons_of_mem l hl'))
    rw [applyEffects, ih _ hrest, hstep, List.map_cons, List.sum_cons, add_assoc]

/-- Whole cents that balance leave the two sides level. -/
theorem sum_sign_effectCents {lines : List JournalLineInput}
    (hwhole : ∀ l ∈ lines, l.IsWholeCent)
    (hbalanced : (lines.map fun l => l.debit).sum = (lines.map fun l => l.credit).sum) :
    (lines.map fun l => l.category.side.sign l.effectCents).sum = 0 := by
  have hline : ∀ l ∈ lines, toNumber (l.category.side.sign l.effectCents) = l.net := by
    intro l hl
    have heffect := JournalLineInput.effect_eq (hwhole l hl)
    have hnet : WholeCent l.net := (hwhole l hl).1.sub (hwhole l hl).2
    unfold JournalLineInput.effectCents
    rw [heffect]
    cases l.category.side with
    | debit => exact hnet.toNumber_ofNumber
    | credit =>
      show toNumber (-ofNumber (-l.net)) = l.net
      rw [toNumber_neg, hnet.neg.toNumber_ofNumber, neg_neg]
  have hsum : toNumber (lines.map fun l => l.category.side.sign l.effectCents).sum =
      (lines.map fun l => l.debit).sum - (lines.map fun l => l.credit).sum := by
    rw [← sum_toNumber, List.map_congr_left hline]
    clear hline hwhole hbalanced
    induction lines with
    | nil => simp
    | cons l ls ih =>
      simp only [List.map_cons, List.sum_cons, ih, JournalLineInput.net]
      ring
  rw [hbalanced, sub_self] at hsum
  exact toNumber_eq_zero.mp hsum

end Db

/-! ## A manual journal -/

section ManualJournal

variable {s t : Db} {now : DateTime} {approvedById journalId : Id}

theorem sum_amounts {found : List (JournalLine × GLAccount)} {lines : List JournalLine}
    (hfst : found.map Prod.fst = lines) (f : JournalLine → Cents) :
    (found.map fun l => toNumber (f l.1)).sum = toNumber (lines.map f).sum := by
  rw [sum_toNumber, ← hfst, List.map_map]
  rfl

/-- The lines of a journal that balances as it is stored balance as they are applied. -/
theorem sum_inputsOf {found : List (JournalLine × GLAccount)} {lines : List JournalLine}
    (hfst : found.map Prod.fst = lines)
    (hbalanced : isBalanced (lines.map JournalLine.amounts) = true) :
    ((inputsOf found).map fun l => l.debit).sum = ((inputsOf found).map fun l => l.credit).sum := by
  have hsums : (lines.map JournalLine.debit).sum = (lines.map JournalLine.credit).sum := by
    have hentries := ((isBalanced_iff lines).mp hbalanced).1
    unfold DoubleEntry.Balanced at hentries
    rwa [List.map_map, List.map_map] at hentries
  unfold inputsOf
  rw [List.map_map, List.map_map]
  exact (sum_amounts hfst JournalLine.debit).trans
    ((congrArg toNumber hsums).trans (sum_amounts hfst JournalLine.credit).symm)

/-- The approval of a posting keeps the sides level, whatever the journal is. -/
theorem level_postApprovedJournal {u : Unit} (hs : s.Level)
    (h : (postApprovedJournal now approvedById journalId).run s = (.ok u, t)) : t.Level := by
  obtain ⟨j, found, -, hfst, haccounts, ⟨hbalanced, -, -, ht⟩ | ⟨reason, ht⟩⟩ :=
    run_postApprovedJournal_eq_ok h
  · have hmoved : (s.applyEffects (inputsOf found)).Level := by
      rw [Db.level_iff, Db.imbalance_applyEffects, Db.level_iff.mp hs, zero_add]
      · refine Db.sum_sign_effectCents ?_ (sum_inputsOf hfst hbalanced)
        intro l hl
        obtain ⟨l', -, rfl⟩ := List.mem_map.mp hl
        exact l'.1.isWholeCent_input l'.2.category
      · intro l hl
        obtain ⟨l', hl', rfl⟩ := List.mem_map.mp hl
        show (s.find? .gLAccount l'.1.accountId).map GLAccount.category = some l'.2.category
        rw [haccounts l' hl']
        rfl
    rw [ht]
    exact hmoved.congr (Db.table_modify_of_ne (by decide) _ _ _)
  · rw [ht]
    exact hs.congr (Db.table_modify_of_ne (by decide) _ _ _)

/-- A call that resolves a request for a posting keeps the sides level. -/
theorem level_resolve (call : ResolveCall) (hs : s.Level)
    (hrequest : ∀ r, s.find? .approvalRequest call.requestId = some r → r.type = .journalPosting) :
    (call.handler.run s).2.Level := by
  rcases call.run_handler_cases s with ⟨e, he⟩ | ⟨existing, u, hfind, -, -, htx, hrun⟩
  · rw [he]
    exact hs
  · obtain ⟨row, v, -, -, heffect, hu⟩ := ResolveCall.run_inTx_effect htx
    have htype := hrequest existing hfind
    have hclaimed : (s.modify .approvalRequest call.requestId call.resolve).Level :=
      hs.congr (Db.table_modify_of_ne (by decide) _ _ _)
    have hv : v.Level := by
      unfold ResolveCall.effect at heffect
      cases hdecision : call.decision with
      | approve =>
        simp only [hdecision, applyApproval, htype] at heffect
        exact level_postApprovedJournal hclaimed heffect
      | reject =>
        simp only [hdecision, applyRejection, htype] at heffect
        obtain ⟨row', w, hupdate, hend⟩ := Proc.run_bind_eq_ok heffect
        obtain ⟨_, -, -, hw⟩ := run_update_eq_ok hupdate
        rw [← (Prod.mk.inj hend).2, hw]
        exact hclaimed.congr (Db.table_modify_of_ne (by decide) _ _ _)
    rw [hrun, hu]
    exact hv.congr (Db.table_insert_of_ne (by decide) _ _)

/-- A ledger with one account on each side. -/
def emptyLedger : Db :=
  ((Db.empty.insert .gLAccount
    { institutionId := 1, code := "1000", name := "Cash", category := .asset }).insert .gLAccount
    { institutionId := 1, code := "3000", name := "Capital", category := .equity }).insert
      .financialPeriod { institutionId := 1, startDate := 0, endDate := 10 }

/-- Two half cents against one cent: they balance until they are stored. -/
def halfCents : JournalBody :=
  { description := "Rounding", lines := [⟨1, 1 / 200, 0, none⟩, ⟨1, 1 / 200, 0, none⟩, ⟨2, 0, 1 / 100, none⟩] }

/-- The ledger after the half cents have been stored. -/
def halfCentsStored : Db := ((createManualJournal ⟨1, 1⟩ 1 halfCents).run emptyLedger).2

/-- The ledger after their posting has been requested. -/
def halfCentsRequested : Db := ((requestPosting ⟨1, 1⟩ 1).run halfCentsStored).2

/-- Another user approves it. -/
def approveHalfCents : ResolveCall :=
  { decision := .approve, auth := ⟨1, 2⟩, now := 2, requestId := 1 }

end ManualJournal

end NexusEfos
