/-
Operations that run alone.

An operation with nothing between its statements writes a balance in the state in
which it has read it.  So no absolute write of a sequential run is out of date
(`SavingsOperation.current`).
-/
import NexusEfos.Savings.Balances
import NexusEfos.Savings.Operations

namespace NexusEfos

open Proc

/-- Every balance a statement overwrites is as it was read. -/
def Access.Current (lab : Access) (s : Db) : Prop :=
  ∀ o ∈ lab.overwrites, s.balanceOf o.accountId = o.read

section Rules

variable {α β : Type} {s : Db}

theorem current_query {f : Db → β} {k : β → Handler α}
    (hk : (k (f s)).Meets Access.Current s) : (query f >>= k).Meets Access.Current s :=
  meets_query nofun hk

/-- One write that overwrites no balance. -/
theorem current_updateAs {lab : Access} (hlab : lab.overwrites = []) {m : Model} {id : Id}
    {data : Row m → Row m} {k : Row m → Handler α} (hk : ∀ r t, (k r).Meets Access.Current t) :
    (updateAs lab m id data >>= k).Meets Access.Current s := by
  refine meets_updateAs ?_ hk
  intro o ho
  rw [hlab] at ho
  exact absurd ho List.not_mem_nil

/-- One write to another table. -/
theorem current_update {m : Model} {id : Id} {data : Row m → Row m} {k : Row m → Handler α}
    (hk : ∀ r t, (k r).Meets Access.Current t) :
    (update m id data >>= k).Meets Access.Current s := current_updateAs rfl hk

/-- The record a route leaves at its end. -/
theorem current_create {m : Model} {row : Row m} {k : Id → Handler α}
    (hk : ∀ id t, (k id).Meets Access.Current t) :
    (create m row >>= k).Meets Access.Current s := meets_create nofun hk

/-- A transaction that overwrites one balance. -/
theorem current_overwrite {a : Id} {c : Cents} {acct : SavingsAccount}
    (hacct : s.find? .savingsAccount a = some acct) {lab : Access}
    (hlab : lab.overwrites = [⟨a, acct.balance, c⟩]) {body : Handler β} {k : β → Handler α}
    (hk : ∀ b t, (k b).Meets Access.Current t) :
    (transaction lab body >>= k).Meets Access.Current s := by
  have hread : s.balanceOf a = acct.balance := Db.balanceOf_of_find? hacct
  have hcurrent : lab.Current s := by
    rw [Access.Current, hlab]
    exact List.forall_mem_singleton.mpr hread
  exact Meets.bind ⟨hcurrent, trivial⟩ fun b t _ => hk b t

end Rules

theorem find?_of_filter {m : Model} {s : Db} {id : Id} {row : Row m} {p : Row m → Bool}
    (h : (s.find? m id).filter p = some row) : s.find? m id = some row :=
  (Option.filter_eq_some_iff.mp h).1

theorem chargeFee_current (auth : Auth) (now : DateTime) (a feeTypeId : Id) (s : Db) :
    (chargeFee auth now a feeTypeId).Meets Access.Current s := by
  apply current_query
  apply Meets.orFail
  intro acct hacct
  apply current_query
  apply Meets.orFail
  intro feeType _
  apply current_overwrite (find?_of_filter hacct) rfl
  intro charge t
  exact current_create fun _ _ => current_create fun _ _ => trivial

theorem waiveFee_current (auth : Auth) (now : DateTime) (chargeId : Id) (reason : Option String)
    (s : Db) : (waiveFee auth now chargeId reason).Meets Access.Current s := by
  apply current_query
  apply Meets.orFail
  intro charge _
  apply Meets.require
  intro _
  apply current_query
  cases hacct : s.find? .savingsAccount charge.accountId with
  | none => exact current_update fun _ _ => current_create fun _ _ => trivial
  | some acct =>
    apply current_overwrite hacct rfl
    intro _ t
    exact current_update fun _ _ => current_create fun _ _ => trivial

theorem reverseCollection_current (auth : Auth) (now : DateTime) (collectionId : Id)
    (reason : String) (s : Db) :
    (reverseCollection auth now collectionId reason).Meets Access.Current s := by
  apply Meets.require
  intro _
  apply current_query
  apply Meets.orFail
  intro collection _
  apply Meets.require
  intro _
  cases collection.type with
  | loanRepayment => exact current_updateAs rfl fun _ _ => current_create fun _ _ => trivial
  | savingsDeposit =>
    apply current_query
    cases hacct : s.find? .savingsAccount collection.targetId with
    | none => exact current_updateAs rfl fun _ _ => current_create fun _ _ => trivial
    | some acct =>
      apply current_overwrite hacct rfl
      intro _ t
      exact current_updateAs rfl fun _ _ => current_create fun _ _ => trivial

theorem postInterestForAccount_current (now : DateTime) (a institutionId : Id) (postedById : Option Id)
    (batchId : Option String) (s : Db) :
    (postInterestForAccount now a institutionId postedById batchId).Meets Access.Current s := by
  apply current_query
  split
  · dsimp only
    split
    · trivial
    · apply meets_findUniqueOrThrow nofun
      intro acct hacct
      apply current_overwrite hacct rfl
      intro _ _
      trivial
  · trivial

theorem postInterest_current (auth : Auth) (now : DateTime) (a : Id) (s : Db) :
    (postInterest auth now a).Meets Access.Current s := by
  apply (postInterestForAccount_current now a auth.institutionId (some auth.userId) none s).bind
  intro found t _
  apply Meets.orFail
  intro result _
  exact current_create fun _ _ => trivial

theorem postAllForInstitution_current (now : DateTime) (institutionId : Id) (postedById : Option Id)
    (batchId : Option String) (s : Db) :
    (postAllForInstitution now institutionId postedById batchId).Meets Access.Current s := by
  apply current_query
  have hloop := Meets.mapEach (fun a (_ : a ∈ s.accountsWithUnposted institutionId) t =>
    postInterestForAccount_current now a institutionId postedById batchId t) s
  apply hloop.bind
  intro _ _ _
  trivial

theorem reverseInterest_current (auth : Auth) (now : DateTime) (postingId : Id) (reason : String)
    (s : Db) : (reverseInterest auth now postingId reason).Meets Access.Current s := by
  apply Meets.require
  intro _
  apply current_query
  apply Meets.orFail
  intro posting _
  apply Meets.require
  intro _
  apply meets_findUniqueOrThrow nofun
  intro acct hacct
  apply current_overwrite hacct rfl
  intro _ _
  exact current_create fun _ _ => trivial

theorem recordExecution_current (siId : Id) (si : StandingInstruction) (s : Db) :
    (recordExecution siId si).Meets Access.Current s :=
  current_create fun _ _ => current_updateAs rfl fun _ _ => trivial

theorem executeFrom_current (now : DateTime) (siId : Id) {si : StandingInstruction} {source : SavingsAccount}
    {s : Db} (hsource : s.find? .savingsAccount si.sourceAccountId = some source) :
    (executeFrom now siId si source).Meets Access.Current s := by
  unfold executeFrom
  dsimp only
  split
  · next destId _ _ =>
    apply current_query
    cases hdest : s.find? .savingsAccount destId with
    | none => exact current_create fun _ _ => trivial
    | some dest =>
      refine Meets.bind ⟨?_, trivial⟩ fun _ t _ => recordExecution_current siId si t
      intro o ho
      rcases List.mem_pair.mp ho with rfl | rfl
      · exact Db.balanceOf_of_find? hsource
      · exact Db.balanceOf_of_find? hdest
  · exact current_overwrite hsource rfl fun _ t => recordExecution_current siId si t
  · exact current_overwrite hsource rfl fun _ t => recordExecution_current siId si t
  · exact recordExecution_current siId si s

theorem runStandingInstructions_current (now : DateTime) (s : Db) :
    (runStandingInstructions now).Meets Access.Current s := by
  apply current_query
  apply Meets.forEach
  intro si _ t
  apply current_query
  cases hsource : t.find? .savingsAccount si.2.sourceAccountId with
  | none => exact current_update fun _ _ => current_create fun _ _ => trivial
  | some source =>
    dsimp only
    split
    · exact current_update fun _ _ => current_create fun _ _ => trivial
    · exact executeFrom_current now si.1 hsource

theorem discard_current {α : Type} {p : Handler α} {s : Db} (hp : p.Meets Access.Current s) :
    (discard p).Meets Access.Current s := hp.bind fun _ _ _ => trivial

/-- No write of an operation that runs alone is out of date. -/
theorem SavingsOperation.current {op : SavingsOperation} (h : op.Does .overwrote) (s : Db) :
    op.handler.Meets Access.Current s := by
  cases op with
  | deposit auth now a x => exact nomatch h
  | withdraw auth now a x => exact nomatch h
  | recordCollection auth now body => exact nomatch h
  | chargeFee auth now a feeTypeId => exact discard_current (chargeFee_current auth now a feeTypeId s)
  | waiveFee auth now chargeId reason =>
    exact discard_current (waiveFee_current auth now chargeId reason s)
  | runStandingInstructions now => exact runStandingInstructions_current now s
  | postInterest auth now a => exact discard_current (postInterest_current auth now a s)
  | postAllInterest now institutionId postedById batchId =>
    exact discard_current (postAllForInstitution_current now institutionId postedById batchId s)
  | reverseInterest auth now postingId reason =>
    exact reverseInterest_current auth now postingId reason s
  | reverseCollection auth now collectionId reason =>
    exact discard_current (reverseCollection_current auth now collectionId reason s)

end NexusEfos
