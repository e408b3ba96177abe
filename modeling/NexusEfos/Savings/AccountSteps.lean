/-
What an operation that runs alone does to one account.

A statement of the books leaves an account as it is, moves its balance by the change that
its label announces, or adds or takes the amount of its label (`BooksStep.moves`).  The
status of an account, and whether it is there, is no business of these statements.
-/
import NexusEfos.Loans.Disbursements
import NexusEfos.Savings.Accounts
import NexusEfos.Savings.Sequential
import NexusEfos.Savings.Writes

namespace NexusEfos

open Proc

/-! ## Accounts before and after -/

/-- The accounts of two states are the same ones, and each is related to what it was. -/
def Db.RelateAccounts (R : Id → SavingsAccount → SavingsAccount → Prop) (s t : Db) : Prop :=
  ∀ a, Option.Rel (R a) (s.find? .savingsAccount a) (t.find? .savingsAccount a)

namespace Db.RelateAccounts

variable {R : Id → SavingsAccount → SavingsAccount → Prop} {s t : Db}

/-- A table on which each row is rewritten. -/
theorem of_map (f : Id → SavingsAccount → SavingsAccount)
    (hf : ∀ a acct, s.find? .savingsAccount a = some acct → R a acct (f a acct))
    (h : ∀ a, t.find? .savingsAccount a = (s.find? .savingsAccount a).map (f a)) :
    s.RelateAccounts R t := by
  intro a
  rw [h]
  cases hacct : s.find? .savingsAccount a with
  | some acct => exact .some (hf a acct hacct)
  | none => exact .none

theorem of_table_eq (hrefl : ∀ a acct, R a acct acct)
    (h : t.table .savingsAccount = s.table .savingsAccount) : s.RelateAccounts R t := by
  apply of_map (fun _ acct => acct)
  · exact fun a acct _ => hrefl a acct
  · intro a
    rw [Db.find?, h, Option.map_id']
    rfl

theorem modify (hrefl : ∀ a acct, R a acct acct) {id : Id} {f : SavingsAccount → SavingsAccount}
    (hf : ∀ acct, s.find? .savingsAccount id = some acct → R id acct (f acct)) :
    s.RelateAccounts R (s.modify .savingsAccount id f) := by
  apply of_map fun a acct => if a = id then f acct else acct
  · intro a acct hacct
    by_cases ha : a = id
    · subst ha
      rw [if_pos rfl]
      exact hf acct hacct
    · rw [if_neg ha]
      exact hrefl a acct
  · intro a
    rw [Db.find?_modify]
    by_cases ha : a = id
    · simp only [if_pos ha]
    · simp only [if_neg ha, Option.map_id']

theorem trans {u : Db} (hR : ∀ a x y z, R a x y → R a y z → R a x z) (h : s.RelateAccounts R t)
    (h' : t.RelateAccounts R u) : s.RelateAccounts R u := by
  intro a
  have hfirst := h a
  have hsecond := h' a
  revert hfirst hsecond
  generalize s.find? .savingsAccount a = x
  generalize t.find? .savingsAccount a = y
  generalize u.find? .savingsAccount a = z
  intro hfirst hsecond
  cases hfirst with
  | some hxy =>
    cases hsecond with
    | some hyz => exact .some (hR a _ _ _ hxy hyz)
  | none => exact hsecond

/-- The account an account comes from. -/
theorem before (h : s.RelateAccounts R t) {a : Id} {acct' : SavingsAccount}
    (hacct : t.find? .savingsAccount a = some acct') :
    ∃ acct, s.find? .savingsAccount a = some acct ∧ R a acct acct' := by
  have hrel := h a
  rw [hacct] at hrel
  cases hbefore : s.find? .savingsAccount a with
  | some acct =>
    rw [hbefore] at hrel
    exact ⟨acct, rfl, Option.rel_some_some.mp hrel⟩
  | none =>
    rw [hbefore] at hrel
    exact absurd hrel Option.not_rel_none_some

/-- A relation of balances, for an account that is not there as well. -/
theorem balanceOf {r : Cents → Cents → Prop} {a : Id} (h : s.RelateAccounts R t)
    (hzero : r 0 0) (hR : ∀ acct acct', R a acct acct' → r acct.balance acct'.balance) :
    r (s.balanceOf a) (t.balanceOf a) := by
  have hrel := h a
  unfold Db.balanceOf
  revert hrel
  generalize s.find? .savingsAccount a = x
  generalize t.find? .savingsAccount a = y
  intro hrel
  cases hrel with
  | some hxy => exact hR _ _ hxy
  | none => exact hzero

end Db.RelateAccounts

/-! ## One statement of the books -/

/-- What a statement with a label can do to an account. -/
inductive Access.Moves (lab : Access) (a : Id) (acct : SavingsAccount) : SavingsAccount → Prop
  | same : Moves lab a acct acct
  | overwritten {o : Overwrite} (ho : o ∈ lab.overwrites) (ha : o.accountId = a) :
      Moves lab a acct (acct.setCents (acct.balance + o.change))
  | deposited {x : ℚ} (hi : (a, x) ∈ lab.increments) (hx : 0 < x) :
      Moves lab a acct (acct.increment x)
  | withdrew {x : ℚ} (hi : (a, -x) ∈ lab.increments) (hx : 0 < x)
      (hfunds : x ≤ toNumber acct.balance) : Moves lab a acct (acct.increment (-x))

namespace Db

variable {s : Db}

/-- The last of some absolute writes to an account is what remains. -/
theorem find?_overwrite (os : List Overwrite) (s : Db) (a : Id) :
    (s.overwrite os).find? .savingsAccount a = s.find? .savingsAccount a ∨
      ∃ o ∈ os, o.accountId = a ∧ (s.overwrite os).find? .savingsAccount a =
        (s.find? .savingsAccount a).map (SavingsAccount.setCents o.written) := by
  induction os generalizing s with
  | nil => exact .inl rfl
  | cons o os ih =>
    have hfirst : (s.modify .savingsAccount o.accountId
        (SavingsAccount.setCents o.written)).find? .savingsAccount a =
          if a = o.accountId then
            (s.find? .savingsAccount a).map (SavingsAccount.setCents o.written)
          else s.find? .savingsAccount a := find?_modify ..
    rcases ih (s.modify .savingsAccount o.accountId (SavingsAccount.setCents o.written)) with
      hsame | ⟨o', ho', ha', hlast⟩
    · by_cases ha : a = o.accountId
      · rw [if_pos ha] at hfirst
        exact .inr ⟨o, List.mem_cons_self .., ha.symm, hsame.trans hfirst⟩
      · rw [if_neg ha] at hfirst
        exact .inl (hsame.trans hfirst)
    · refine .inr ⟨o', List.mem_cons_of_mem o ho', ha', hlast.trans ?_⟩
      rw [hfirst]
      by_cases ha : a = o.accountId
      · rw [if_pos ha, Option.map_map]
        rfl
      · rw [if_neg ha]

theorem find?_move (s : Db) (a : Id) (x : ℚ) (row : SavingsTransaction)
    (lines : List JournalLineInput) (a' : Id) :
    (s.move a x row lines).find? .savingsAccount a' =
      (s.modify .savingsAccount a (SavingsAccount.increment x)).find? .savingsAccount a' := by
  rw [move, find?_applyEffects_of_ne (by decide), find?_insert_of_ne (by decide)]

end Db

section Step

variable {allowed : BooksKind → Prop} {lab : Access} {s t : Db} {d d' : Id → Cents}

/-- A movement of one account. -/
theorem relateAccounts_move {a : Id} {x : ℚ} {row : SavingsTransaction}
    {lines : List JournalLineInput} (hagree : (s.move a x row lines).Agree books t)
    (hmoves : ∀ acct, s.find? .savingsAccount a = some acct →
      lab.Moves a acct (acct.increment x)) : s.RelateAccounts lab.Moves t := by
  have hmodify : s.RelateAccounts lab.Moves
      (s.modify .savingsAccount a (SavingsAccount.increment x)) :=
    .modify (fun _ _ => .same) hmoves
  intro a'
  rw [hagree.find? (by decide), Db.find?_move]
  exact hmodify a'

/-- The accounts after a statement of the books that overwrites what it has just read. -/
theorem BooksStep.moves (h : BooksStep allowed lab s d t d')
    (hcurrent : allowed .overwrote → lab.Current s) : s.RelateAccounts lab.Moves t := by
  cases h with
  | quiet hagree =>
    exact .of_table_eq (fun _ _ => .same) (hagree .savingsAccount (by decide))
  | @deposited a x acct money owed _ _ _ _ hl hx hacct _ hagree =>
    apply relateAccounts_move hagree
    intro acct _
    apply Access.Moves.deposited ?_ hx
    rw [hl]
    exact List.mem_singleton.mpr rfl
  | @withdrew a x acct money owed _ _ _ _ hl hx hacct hfunds _ hagree =>
    apply relateAccounts_move hagree
    intro acct' hacct'
    rw [hacct] at hacct'
    cases hacct'
    apply Access.Moves.withdrew ?_ hx hfunds
    rw [hl]
    exact List.mem_singleton.mpr rfl
  | @repaid loanId _ recordedById x money receivable _ _ _ _ _ hagree =>
    apply Db.RelateAccounts.of_table_eq fun _ _ => .same
    rw [hagree .savingsAccount (by decide), Db.table_applyEffects (by decide),
      Db.table_repay_of_ne (by decide) (by decide)]
  | @overwrote _ os rows repayments _ _ _ hkind hl _ hagree _ =>
    have hread := hcurrent hkind
    have hsame : ∀ a, t.find? .savingsAccount a = (s.overwrite os).find? .savingsAccount a := by
      intro a
      rw [hagree.find? (by decide), Db.find?, Db.table_insertAll (by decide),
        Db.table_insertAll (by decide), Db.find?]
    intro a
    rw [hsame]
    rcases Db.find?_overwrite os s a with hkept | ⟨o, ho, rfl, hlast⟩
    · rw [hkept]
      cases s.find? .savingsAccount a with
      | some acct => exact .some .same
      | none => exact .none
    · rw [hlast]
      have hmem : o ∈ lab.overwrites := by
        rw [hl]
        exact ho
      have hnow := hread o hmem
      cases hacct : s.find? .savingsAccount o.accountId with
      | some acct =>
        rw [Db.balanceOf_of_find? hacct] at hnow
        have hwritten : o.written = acct.balance + o.change := by
          rw [Overwrite.written, hnow]
        rw [Option.map_some, hwritten]
        exact .some (.overwritten hmem rfl)
      | none => exact .none

end Step

/-! ## One operation -/

/-- What every statement that moves accounts in the way of its label keeps, an operation that
runs alone keeps. -/
theorem SavingsOperation.run_accounts {A : Access → Db → Prop} {I : Db → Prop}
    (op : SavingsOperation)
    (hstep : ∀ lab t t', A lab t → t.RelateAccounts lab.Moves t' → I t → I t') {s : Db} (hs : I s)
    (hmeets : op.handler.Meets A s) : I (op.handler.run s).2 := by
  have hcurrent : op.handler.Meets (fun lab u => op.Does .overwrote → lab.Current u) s := by
    by_cases h : op.Does .overwrote
    · exact (SavingsOperation.current h s).imp fun _ _ hcur _ => hcur
    · exact (Proc.meets_true _ s).imp fun _ _ _ h' => absurd h' h
  have hguar : ∀ (lab : Access) (t : Db) (d : Id → Cents) (t' : Db) (d' o : Id → Cents),
      (A lab t ∧ (op.Does .overwrote → lab.Current t)) →
        BooksStep op.Does lab t d t' d' → t.Evolves t' → I t → I t' :=
    fun lab t d t' d' _ hlab hbooks _ ht => hstep lab t t' hlab.1 (hbooks.moves hlab.2) ht
  have hkeeps := op.keepsBooks (fun _ h => h) s
  obtain ⟨_, -, -, hend⟩ := hkeeps.run (I := fun t _ => I t) hguar (o := 0) hs
    (hmeets.and hcurrent)
  exact hend

/-! ## The other calls -/

/-- The same balance and the same status. -/
def SavingsAccount.Stands (_ : Id) (acct acct' : SavingsAccount) : Prop :=
  acct'.balance = acct.balance ∧ acct'.status = acct.status

/-- Every account is there and stands as it did. -/
def Db.AccountsStand (s t : Db) : Prop := s.RelateAccounts SavingsAccount.Stands t

theorem Db.AccountsStand.of_table_eq {s t : Db}
    (h : t.table .savingsAccount = s.table .savingsAccount) : s.AccountsStand t :=
  Db.RelateAccounts.of_table_eq (fun _ _ => ⟨rfl, rfl⟩) h

theorem Db.AccountsStand.refl (s : Db) : s.AccountsStand s := .of_table_eq rfl

theorem Db.AccountsStand.trans {s t u : Db} (h : s.AccountsStand t) (h' : t.AccountsStand u) :
    s.AccountsStand u :=
  Db.RelateAccounts.trans (fun _ _ _ _ hxy hyz => ⟨hyz.1.trans hxy.1, hyz.2.trans hxy.2⟩) h h'

theorem Quiet.accountsStand {α : Type} {p : Handler α} (hp : Quiet [.savingsAccount] p) :
    p.Every Db.AccountsStand :=
  Proc.Every.imp hp fun _ _ h => .of_table_eq (h _ (by decide))

/-- The opening of an account adds one with nothing on it. -/
theorem openAccount_every {A : Db → Db → Prop}
    (hquiet : ∀ s t, s.Agree [.savingsAccount] t → A s t)
    (hopen : ∀ s (acct : SavingsAccount), acct.balance = 0 → A s (s.insert .savingsAccount acct))
    (js : Js OpeningContext) (auth : Auth) (now : DateTime) (accountNumber : String)
    (body : OpenAccount) : (openAccount js auth now accountNumber body).Every A := by
  have hevery : ∀ {α : Type} {p : Handler α}, Quiet [.savingsAccount] p → p.Every A :=
    fun hp => Proc.Every.imp hp hquiet
  refine (hevery (Quiet.query _)).bind fun foundCustomer => ?_
  refine (Every.orFail _ _).bind fun customer => (Every.require _ _).bind fun _ => ?_
  refine (hevery (Quiet.query _)).bind fun foundVersion => ?_
  refine (Every.orFail _ _).bind fun version => (Every.require _ _).bind fun _ => ?_
  refine (Every.require _ _).bind fun _ => ?_
  refine (hevery (Quiet.matchRules _ _ _ _ _)).bind fun matched => ?_
  refine (hevery (Quiet.requireUnblocked _ _)).bind fun _ => ?_
  refine Every.bind ⟨fun s => hopen s _ rfl, fun _ => trivial⟩ fun account => ?_
  refine (hevery (Quiet.create (by decide) _)).bind fun _ => ?_
  exact (hevery (Quiet.executeMatchedRules (by decide) (by decide) _ _ _ _ _)).bind fun _ => trivial

/-- A merge gives the accounts of a customer to another one. -/
theorem mergeCustomers_accountsStand (now : DateTime) (approvedById targetId : Id) :
    (mergeCustomers now approvedById targetId).Every Db.AccountsStand := by
  have hwatched : ∀ m ∈ approvalWrites .customerMerge, m ∉ mergedModels →
      m ∉ [Model.savingsAccount] := by decide
  apply mergeCustomers_every_of_reassign hwatched
  · exact fun s s' h => .of_table_eq (h _ (by decide))
  · intro p q
    exact (Quiet.reassign (by decide) _ _ p q).accountsStand
  · intro p q
    apply reassign_every Db.AccountsStand.refl
    intro s
    apply Db.RelateAccounts.of_map fun _ acct =>
      if decide (acct.customerId = q) = true then { acct with customerId := p } else acct
    · intro a acct _
      split
      · exact ⟨rfl, rfl⟩
      · exact ⟨rfl, rfl⟩
    · intro a
      rw [Db.find?, Db.table_modifyAll_self, OrderedMap.get?_updateAll]
      rfl
  · intro p q
    exact (Quiet.reassign (by decide) _ _ p q).accountsStand

theorem ResolveCall.effect_accountsStand (call : ResolveCall) (existing : ApprovalRequest) :
    (call.effect existing).Every Db.AccountsStand := by
  cases hdecision : call.decision with
  | reject =>
    unfold effect
    rw [hdecision]
    exact (Quiet.rejection (by decide) existing).accountsStand
  | approve =>
    by_cases hwrites : ∀ m ∈ approvalWrites existing.type, m ∉ [Model.savingsAccount]
    · exact (call.quiet_effect hwrites).accountsStand
    · -- Only a merge writes the accounts.
      have htype : existing.type = .customerMerge := by
        revert hwrites
        cases existing.type <;> decide
      unfold effect applyApproval
      rw [hdecision]
      simp only [htype]
      exact mergeCustomers_accountsStand call.now call.auth.userId existing.targetId

/-- A decision about a request leaves the balances and the status of every account alone. -/
theorem ResolveCall.accountsStand (call : ResolveCall) : call.handler.Every Db.AccountsStand := by
  have hbody : ∀ existing, (call.inTx existing).Every Db.AccountsStand := by
    intro existing
    have hclaim : Quiet [.savingsAccount] call.claim :=
      (Quiet.updateGuarded (by decide) _ _ _).bind fun _ => Quiet.require _ _
    refine hclaim.accountsStand.bind fun _ => (call.effect_accountsStand existing).bind fun _ => ?_
    exact ((Quiet.create (by decide) _).bind fun _ => Quiet.pure ()).accountsStand
  refine (Quiet.query _).accountsStand.bind fun found => ?_
  refine (Proc.Every.orFail _ _).bind fun existing => (Proc.Every.require _ _).bind fun _ => ?_
  refine (Proc.Every.require _ _).bind fun _ => ?_
  apply Proc.Every.of_commit Db.AccountsStand.refl
  intro s a s' hrun
  have hwhole := run_interrupted_eq_ok hrun
  have hstand := (hbody existing).run Db.AccountsStand.refl Db.AccountsStand.trans s
  rwa [hwhole] at hstand

end NexusEfos
