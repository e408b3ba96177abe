/-
Interest that is paid once.

A posting reads the accruals that no posting has taken up, and takes them up in a transaction of its
own; a reversal looks at its posting and gives back what it has taken up in another; and an accrual
is written after it was seen to be free.  What holds of the tables of both (`Db.InterestBooked`)
survives as long as each of them still finds what it has read.
-/
import NexusEfos.Handlers
import NexusEfos.Library.History
import NexusEfos.Savings.Accruals

namespace NexusEfos

open Proc

/-! ## What a run writes -/

section Steps

variable {D : Access → Db → Db → Prop} {watched : List Model} {accountId : Id}

theorem quiet_resolveEffectiveRate (now : DateTime) (account : SavingsAccount)
    (productVersionId : Id) (productVersion : ProductVersion) (balanceUsed : ℚ) :
    Quiet watched
      (resolveEffectiveRate now account productVersionId productVersion balanceUsed) := by
  unfold resolveEffectiveRate
  split
  · exact .pure _
  · split
    · refine (Quiet.query _).bind fun tiers => ?_
      split
      · exact .pure _
      · exact .pure _
    · exact .pure _

theorem quiet_loadAccountWithProduct (accountId institutionId : Id) :
    Quiet watched (loadAccountWithProduct accountId institutionId) := by
  refine (Quiet.query _).bind fun found => ?_
  cases found with
  | none => exact .pure _
  | some account =>
    dsimp only
    split
    · exact .pure _
    · exact (Quiet.query _).bind fun version => .pure _

/-- The rows of a run are those of its account, and no posting has taken up the ones it creates. -/
theorem accrueRows_everyStep (hagree : ∀ lab s t, s.Agree watched t → D lab s t)
    (hupsert : ∀ new : SavingsInterestAccrual, new.accountId = accountId → new.posted = false →
      new.postingId = none → (upsertAccrual new).EveryStep D)
    (now : DateTime) (institutionId : Id) (account : SavingsAccount) (version : Id × ProductVersion)
    (throughDate : DateTime) :
    (accrueRows now accountId institutionId account version throughDate).EveryStep D := by
  have hquiet : ∀ {α : Type} {p : Handler α}, Quiet watched p → p.EveryStep D :=
    fun hp => .of_every hagree hp
  have hrate := fun x => hquiet (quiet_resolveEffectiveRate now account version.1 version.2 x)
  unfold accrueRows
  split
  · refine (hquiet (.query _)).bind fun existing => ?_
    split
    · exact hquiet (.pure _)
    · refine (Proc.EveryStep.mapEach fun _ _ => hquiet (.query _)).bind fun dayBalances => ?_
      exact (hrate _).bind fun rate => (hupsert _ rfl rfl rfl).bind fun accrual => hquiet (.pure _)
  · refine (Proc.EveryStep.mapEach fun d _ => ?_).bind fun results => hquiet (.pure _)
    refine (hquiet (.query _)).bind fun existing => ?_
    split
    · exact hquiet (.pure _)
    · refine (hquiet (.query _)).bind fun balanceUsed => (hrate _).bind fun rate => ?_
      exact (hupsert _ rfl rfl rfl).bind fun accrual => hquiet (.pure _)

theorem runAccrualForAccount_everyStep (hagree : ∀ lab s t, s.Agree watched t → D lab s t)
    (hupsert : ∀ new : SavingsInterestAccrual, new.accountId = accountId → new.posted = false →
      new.postingId = none → (upsertAccrual new).EveryStep D)
    (hupdate : ∀ throughDate, (update .savingsAccount accountId fun a =>
      { a with lastAccrualDate := some throughDate }).EveryStep D)
    (now : DateTime) (institutionId : Id) (throughDate : DateTime) :
    (runAccrualForAccount now accountId institutionId throughDate).EveryStep D := by
  have hquiet : ∀ {α : Type} {p : Handler α}, Quiet watched p → p.EveryStep D :=
    fun hp => .of_every hagree hp
  refine (hquiet (quiet_loadAccountWithProduct ..)).bind fun loaded => ?_
  split
  · split
    · exact hquiet (.pure _)
    · split
      · exact hquiet (.pure _)
      · refine (accrueRows_everyStep hagree hupsert ..).bind fun outcome => ?_
        cases outcome with
        | skipped reason => exact hquiet (.pure _)
        | accruals rows => exact (hupdate _).bind fun _ => hquiet (.pure _)
  · exact hquiet (.pure _)

end Steps

/-! ## The tables of accruals and postings -/

def interestTables : List Model := [.savingsInterestAccrual, .savingsInterestPosting]

namespace Db

/-- An accrual is added, or the one of the same account and date is written again. -/
def withAccrual (s : Db) (new : SavingsInterestAccrual) : Db :=
  match s.accrualOf new.accountId new.accrualDate with
  | some (id, _) => s.modify .savingsInterestAccrual id new.rewrite
  | none => s.insert .savingsInterestAccrual new

/-- A posting is added, and takes up accruals. -/
def takeUp (s : Db) (posting : SavingsInterestPosting) (accrualIds : List Id) : Db :=
  (s.insert .savingsInterestPosting posting).modifyAll .savingsInterestAccrual fun id a =>
    if id ∈ accrualIds then
      { a with posted := true, postingId := some (s.nextId .savingsInterestPosting) }
    else a

/-- A posting is written, and gives its accruals back. -/
def releaseAccruals (s : Db) (postingId : Id)
    (f : SavingsInterestPosting → SavingsInterestPosting) : Db :=
  (s.modify .savingsInterestPosting postingId f).modifyAll .savingsInterestAccrual fun _ a =>
    if a.postingId = some postingId then { a with posted := false, postingId := none } else a

/-- The posting is there and has not been reversed. -/
def Stands (s : Db) (postingId : Id) : Prop :=
  ∃ posting ∈ s.find? .savingsInterestPosting postingId, posting.reversedAt = none

/-- The interest that a posting has taken up. -/
def takenUp (s : Db) (postingId : Id) : Cents :=
  (s.table .savingsInterestAccrual).total fun _ a =>
    if a.postingId = some postingId then a.amountAccrued else 0

/-- The totals of the postings of an account that have not been reversed. -/
def postedTotal (s : Db) (accountId : Id) : Cents :=
  (s.table .savingsInterestPosting).total fun _ p =>
    if p.accountId = accountId ∧ p.reversedAt = none then p.totalAmount else 0

/-- The interest of an account that is marked as posted. -/
def accruedTotal (s : Db) (accountId : Id) : Cents :=
  (s.table .savingsInterestAccrual).total fun _ a =>
    if a.accountId = accountId ∧ a.posted = true then a.amountAccrued else 0

/-- An accrual is posted exactly if it names a posting, which then is one of its account and not
reversed; and a posting that has not been reversed comes to what it has taken up. -/
structure InterestBooked (s : Db) : Prop where
  named : ∀ id a, s.find? .savingsInterestAccrual id = some a → a.posted = a.postingId.isSome
  stands : ∀ id a p, s.find? .savingsInterestAccrual id = some a → a.postingId = some p →
    ∃ posting ∈ s.find? .savingsInterestPosting p,
      posting.reversedAt = none ∧ posting.accountId = a.accountId
  totals : ∀ p, ∀ posting ∈ s.find? .savingsInterestPosting p, posting.reversedAt = none →
    posting.totalAmount = s.takenUp p

variable {s t : Db}

namespace InterestBooked

theorem of_agree (hs : s.InterestBooked) (h : s.Agree interestTables t) : t.InterestBooked := by
  have haccruals : t.table .savingsInterestAccrual = s.table .savingsInterestAccrual :=
    h _ (by decide)
  have hpostings : t.table .savingsInterestPosting = s.table .savingsInterestPosting :=
    h _ (by decide)
  constructor
  · unfold find?
    rw [haccruals]
    exact hs.named
  · unfold find?
    rw [haccruals, hpostings]
    exact hs.stands
  · unfold find? takenUp
    rw [haccruals, hpostings]
    exact hs.totals

/-- What is posted in an account is what its postings come to. -/
theorem postedTotal_eq (hs : s.InterestBooked) (accountId : Id) :
    s.postedTotal accountId = s.accruedTotal accountId := by
  obtain ⟨postings, hpostings⟩ : ∃ m, m = s.table .savingsInterestPosting := ⟨_, rfl⟩
  -- What the postings come to, posting by posting and accrual by accrual.
  have hposted : s.postedTotal accountId = ∑ p ∈ postings.keys.toFinset,
      (s.table .savingsInterestAccrual).total fun _ a =>
        if (∃ posting ∈ postings.get? p, posting.accountId = accountId ∧
          posting.reversedAt = none) ∧ a.postingId = some p then a.amountAccrued else 0 := by
    have hkeys : postings.keys.Nodup := postings.nodup_keys
    rw [postedTotal, ← hpostings, OrderedMap.total_eq_sum_keys, List.sum_toFinset _ hkeys]
    congr 1
    apply List.map_congr_left
    intro p _
    cases hp : postings.get? p with
    | none => exact (OrderedMap.total_eq_zero fun _ _ _ => if_neg fun h => by simp at h).symm
    | some posting =>
      rw [Option.elim_some]
      by_cases hstands : posting.accountId = accountId ∧ posting.reversedAt = none
      · rw [if_pos hstands, hs.totals p posting (by rw [find?, ← hpostings, hp]; rfl) hstands.2]
        apply OrderedMap.total_congr
        intro id a _
        simp [hstands]
      · rw [if_neg hstands]
        refine (OrderedMap.total_eq_zero fun id a _ => if_neg ?_).symm
        rintro ⟨⟨posting', hmem, hstands'⟩, -⟩
        rw [Option.mem_def] at hmem
        exact hstands (Option.some.inj hmem ▸ hstands')
  rw [hposted, ← OrderedMap.total_sum, accruedTotal]
  apply OrderedMap.total_congr
  intro id a ha
  have hfind : s.find? .savingsInterestAccrual id = some a := OrderedMap.get?_eq_some.mpr ha
  have hnamed := hs.named id a hfind
  cases hp : a.postingId with
  | none =>
    rw [hp] at hnamed
    rw [hnamed]
    simp
  | some p =>
    obtain ⟨posting, hposting, hstands, haccount⟩ := hs.stands id a p hfind hp
    rw [hp] at hnamed
    have hget : postings.get? p = some posting := by rw [hpostings]; exact hposting
    have hmem : p ∈ postings.keys.toFinset :=
      List.mem_toFinset.mpr (OrderedMap.mem_keys.mpr ⟨posting, OrderedMap.get?_eq_some.mp hget⟩)
    rw [Finset.sum_eq_single_of_mem p hmem]
    · simp [hget, hstands, haccount, hnamed]
    · intro q _ hq
      exact if_neg fun h => hq (Option.some.inj h.2).symm

/-- An accrual is written that no posting has taken up. -/
theorem withAccrual (hs : s.InterestBooked) {new : SavingsInterestAccrual}
    (hnew : new.posted = false) (hfree : new.postingId = none)
    (hcurrent : ∀ e ∈ s.accrualOf new.accountId new.accrualDate, e.2.posted = false) :
    (s.withAccrual new).InterestBooked := by
  have hpostings : (s.withAccrual new).table .savingsInterestPosting =
      s.table .savingsInterestPosting := by
    unfold Db.withAccrual
    split
    · exact table_modify_of_ne (by decide) _ _ _
    · exact table_insert_of_ne (by decide) _ _
  have hrows : ∀ id a, (s.withAccrual new).find? .savingsInterestAccrual id = some a →
      (a.posted = false ∧ a.postingId = none) ∨ ∃ a', s.find? .savingsInterestAccrual id = some a' ∧
        a.posted = a'.posted ∧ a.postingId = a'.postingId ∧ a.accountId = a'.accountId := by
    intro id a ha
    unfold Db.withAccrual at ha
    split at ha
    · rw [find?_modify] at ha
      split at ha
      · obtain ⟨a', ha', rfl⟩ := Option.map_eq_some_iff.mp ha
        exact .inr ⟨a', ha', rfl, rfl, rfl⟩
      · exact .inr ⟨a, ha, rfl, rfl, rfl⟩
    · rw [find?_insert] at ha
      split at ha
      · rw [← Option.some.inj ha]
        exact .inl ⟨hnew, hfree⟩
      · exact .inr ⟨a, ha, rfl, rfl, rfl⟩
  have htaken : ∀ p, (s.withAccrual new).takenUp p = s.takenUp p := by
    intro p
    unfold Db.withAccrual takenUp
    cases hof : s.accrualOf new.accountId new.accrualDate with
    | none =>
      dsimp only
      rw [table_insert_self, OrderedMap.total_create, hfree, if_neg (by simp), add_zero]
    | some e =>
      have hfind : s.find? .savingsInterestAccrual e.1 = some e.2 :=
        OrderedMap.get?_eq_some.mpr (List.mem_of_find?_eq_some hof)
      have hunposted := hcurrent e hof
      rw [hs.named e.1 e.2 hfind, Option.isSome_eq_false_iff, Option.isNone_iff_eq_none]
        at hunposted
      dsimp only
      rw [table_modify_self, OrderedMap.total_modify_of_some hfind]
      simp [SavingsInterestAccrual.rewrite, hunposted]
  constructor
  · intro id a ha
    rcases hrows id a ha with ⟨hp, hn⟩ | ⟨a', ha', hp, hn, -⟩
    · rw [hp, hn]
      rfl
    · rw [hp, hn]
      exact hs.named id a' ha'
  · intro id a p ha hp
    rcases hrows id a ha with ⟨-, hn⟩ | ⟨a', ha', -, hn, haccount⟩
    · rw [hn] at hp
      exact absurd hp nofun
    · rw [find?, hpostings, haccount]
      exact hs.stands id a' p ha' (hn ▸ hp)
  · intro p posting hposting hstands
    rw [htaken]
    rw [find?, hpostings] at hposting
    exact hs.totals p posting hposting hstands

/-- A posting takes up accruals that none has taken up, and comes to what they come to. -/
theorem takeUp (hs : s.InterestBooked) {posting : SavingsInterestPosting} {rows : List (Id × Cents)}
    (hrows : ∀ r ∈ rows, ∃ a ∈ s.find? .savingsInterestAccrual r.1,
      a.accountId = posting.accountId ∧ a.posted = false ∧ a.amountAccrued = r.2)
    (hids : (rows.map Prod.fst).Nodup) (htotal : posting.totalAmount = (rows.map Prod.snd).sum)
    (hstands : posting.reversedAt = none) :
    (s.takeUp posting (rows.map Prod.fst)).InterestBooked := by
  obtain ⟨new, hnew⟩ : ∃ p, p = s.nextId .savingsInterestPosting := ⟨_, rfl⟩
  have haccruals : ∀ id, (s.takeUp posting (rows.map Prod.fst)).find? .savingsInterestAccrual id =
      (s.find? .savingsInterestAccrual id).map fun a =>
        if id ∈ rows.map Prod.fst then { a with posted := true, postingId := some new } else a := by
    intro id
    rw [Db.takeUp, find?_modifyAll, find?_insert_of_ne (by decide), hnew]
  have hpostings : ∀ p, (s.takeUp posting (rows.map Prod.fst)).find? .savingsInterestPosting p =
      if p = new then some posting else s.find? .savingsInterestPosting p := by
    intro p
    rw [Db.takeUp, find?, table_modifyAll_of_ne (by decide), ← find?, find?_insert, hnew]
  have hfresh : s.find? .savingsInterestPosting new = none := by
    rw [hnew]
    exact OrderedMap.get?_nextKey _
  have hunnamed : ∀ id a, s.find? .savingsInterestAccrual id = some a → a.postingId ≠ some new := by
    intro id a ha hp
    obtain ⟨posting', hposting', -⟩ := hs.stands id a new ha hp
    rw [hfresh] at hposting'
    exact absurd hposting' (by simp)
  have hfree : ∀ id a, s.find? .savingsInterestAccrual id = some a → id ∈ rows.map Prod.fst →
      a.accountId = posting.accountId ∧ a.postingId = none := by
    intro id a ha hid
    obtain ⟨r, hr, rfl⟩ := List.mem_map.mp hid
    obtain ⟨a', ha', haccount, hunposted, -⟩ := hrows r hr
    rw [Option.mem_def, ha] at ha'
    rw [← Option.some.inj ha'] at haccount hunposted
    rw [hs.named r.1 a ha, Option.isSome_eq_false_iff, Option.isNone_iff_eq_none] at hunposted
    exact ⟨haccount, hunposted⟩
  constructor
  · intro id a ha
    rw [haccruals] at ha
    obtain ⟨a', ha', rfl⟩ := Option.map_eq_some_iff.mp ha
    split
    · rfl
    · exact hs.named id a' ha'
  · intro id a p ha hp
    rw [haccruals] at ha
    obtain ⟨a', ha', rfl⟩ := Option.map_eq_some_iff.mp ha
    rw [hpostings]
    split at hp
    · next hid =>
      rw [if_pos (Option.some.inj hp).symm, if_pos hid]
      exact ⟨posting, rfl, hstands, (hfree id a' ha' hid).1.symm⟩
    · next hid =>
      have hne : p ≠ new := fun h => hunnamed id a' ha' (h ▸ hp)
      rw [if_neg hne, if_neg hid]
      exact hs.stands id a' p ha' hp
  · intro p posting' hposting' hstands'
    have htaken : (s.takeUp posting (rows.map Prod.fst)).takenUp p =
        (s.table .savingsInterestAccrual).total fun id a =>
          if (if id ∈ rows.map Prod.fst then some new else a.postingId) = some p then
            a.amountAccrued
          else 0 := by
      rw [takenUp, Db.takeUp, table_modifyAll_self, table_insert_of_ne (by decide),
        OrderedMap.total_updateAll, ← hnew]
      apply OrderedMap.total_congr
      intro id a _
      by_cases hid : id ∈ rows.map Prod.fst
      · simp only [if_pos hid]
      · simp only [if_neg hid]
    rw [hpostings] at hposting'
    rw [htaken]
    by_cases hp : p = new
    · rw [if_pos hp] at hposting'
      rw [← Option.some.inj hposting', htotal, hp]
      -- What is taken up is what was read.
      have hread : ((s.table .savingsInterestAccrual).total fun id a =>
          if (if id ∈ rows.map Prod.fst then some new else a.postingId) = some new then
            a.amountAccrued
          else 0) = (s.table .savingsInterestAccrual).total fun id a =>
            if id ∈ rows.map Prod.fst then a.amountAccrued else 0 := by
        apply OrderedMap.total_congr
        intro id a ha
        by_cases hid : id ∈ rows.map Prod.fst
        · simp only [if_pos hid]
          rfl
        · simp only [if_neg hid]
          exact if_neg (hunnamed id a (OrderedMap.get?_eq_some.mpr ha))
      rw [hread, OrderedMap.total_of_keys _ _ hids, List.map_map]
      congr 1
      apply List.map_congr_left
      intro r hr
      obtain ⟨a, ha, -, -, hamount⟩ := hrows r hr
      have hget : (s.table .savingsInterestAccrual).get? r.1 = some a := ha
      rw [Function.comp_apply, hget, Option.elim_some, hamount]
    · rw [if_neg hp] at hposting'
      rw [hs.totals p posting' hposting' hstands']
      apply OrderedMap.total_congr
      intro id a ha
      by_cases hid : id ∈ rows.map Prod.fst
      · have hother : some new ≠ some p := fun h => hp (Option.some.inj h).symm
        rw [if_pos hid, if_neg hother,
          (hfree id a (OrderedMap.get?_eq_some.mpr ha) hid).2, if_neg (by simp)]
      · rw [if_neg hid]

/-- A posting is reversed, and what it has taken up is free again. -/
theorem releaseAccruals (hs : s.InterestBooked) (postingId : Id)
    {f : SavingsInterestPosting → SavingsInterestPosting} (hf : ∀ p, (f p).reversedAt ≠ none) :
    (s.releaseAccruals postingId f).InterestBooked := by
  have haccruals : ∀ id, (s.releaseAccruals postingId f).find? .savingsInterestAccrual id =
      (s.find? .savingsInterestAccrual id).map fun a =>
        if a.postingId = some postingId then { a with posted := false, postingId := none }
        else a := by
    intro id
    rw [Db.releaseAccruals, find?_modifyAll, find?_modify_of_ne (by decide)]
  have hpostings : ∀ p, (s.releaseAccruals postingId f).find? .savingsInterestPosting p =
      if p = postingId then (s.find? .savingsInterestPosting p).map f
      else s.find? .savingsInterestPosting p := by
    intro p
    rw [Db.releaseAccruals, find?, table_modifyAll_of_ne (by decide), ← find?, find?_modify]
  constructor
  · intro id a ha
    rw [haccruals] at ha
    obtain ⟨a', ha', rfl⟩ := Option.map_eq_some_iff.mp ha
    split
    · rfl
    · exact hs.named id a' ha'
  · intro id a p ha hp
    rw [haccruals] at ha
    obtain ⟨a', ha', rfl⟩ := Option.map_eq_some_iff.mp ha
    split at hp
    · exact absurd hp (by simp)
    · next hother =>
      have hne : p ≠ postingId := fun h => hother (h ▸ hp)
      rw [hpostings, if_neg hne, if_neg hother]
      exact hs.stands id a' p ha' hp
  · intro p posting hposting hstands
    rw [hpostings] at hposting
    by_cases hp : p = postingId
    · rw [if_pos hp] at hposting
      obtain ⟨posting', -, rfl⟩ := Option.map_eq_some_iff.mp hposting
      exact absurd hstands (hf posting')
    · rw [if_neg hp] at hposting
      rw [hs.totals p posting hposting hstands, takenUp, takenUp, Db.releaseAccruals,
        table_modifyAll_self, table_modify_of_ne (by decide), OrderedMap.total_updateAll]
      apply OrderedMap.total_congr
      intro id a _
      by_cases hgiven : a.postingId = some postingId
      · have hother : some postingId ≠ some p := fun h => hp (Option.some.inj h).symm
        simp only [hgiven, if_true, if_neg hother]
        rfl
      · simp only [if_neg hgiven]

end InterestBooked

end Db

/-! ## What a statement does -/

/-- What a statement does to accruals and postings. -/
inductive InterestStep (lab : Access) (s t : Db) : Prop
  | quiet (h : s.Agree interestTables t)
  | accrue (new : SavingsInterestAccrual) (hposted : new.posted = false)
    (hfree : new.postingId = none)
    (hlab : lab.interest = some (.accrue new.accountId new.accrualDate new.amountAccrued))
    (h : (s.withAccrual new).Agree interestTables t)
  | post (posting : SavingsInterestPosting) (rows : List (Id × Cents))
    (hids : (rows.map Prod.fst).Nodup) (htotal : posting.totalAmount = (rows.map Prod.snd).sum)
    (hstands : posting.reversedAt = none)
    (hlab : lab.interest = some (.post posting.accountId rows))
    (h : (s.takeUp posting (rows.map Prod.fst)).Agree interestTables t)
  | reverse (postingId : Id) (f : SavingsInterestPosting → SavingsInterestPosting)
    (hf : ∀ p, (f p).reversedAt ≠ none) (hlab : lab.interest = some (.reverse postingId))
    (h : (s.releaseAccruals postingId f).Agree interestTables t)

/-- The accrual that is written has not been posted, and those that are posted are there as they
were read. -/
def Access.InterestCurrent (lab : Access) (s : Db) : Prop :=
  match lab.interest with
  | some (.accrue accountId accrualDate _) =>
    ∀ e ∈ s.accrualOf accountId accrualDate, e.2.posted = false
  | some (.post accountId rows) => ∀ r ∈ rows, ∃ a ∈ s.find? .savingsInterestAccrual r.1,
      a.accountId = accountId ∧ a.posted = false ∧ a.amountAccrued = r.2
  | some (.reverse _) | none => True

instance (lab : Access) (s : Db) : Decidable (lab.InterestCurrent s) := by
  unfold Access.InterestCurrent
  split <;> infer_instance

theorem Db.InterestBooked.step {lab : Access} {s t : Db} (hs : s.InterestBooked)
    (hstep : InterestStep lab s t) (hlab : lab.InterestCurrent s) : t.InterestBooked := by
  cases hstep with
  | quiet h => exact hs.of_agree h
  | accrue new hposted hfree heq h =>
    unfold Access.InterestCurrent at hlab
    rw [heq] at hlab
    exact (hs.withAccrual hposted hfree hlab).of_agree h
  | post posting rows hids htotal hstands heq h =>
    unfold Access.InterestCurrent at hlab
    rw [heq] at hlab
    exact (hs.takeUp hlab hids htotal hstands).of_agree h
  | reverse postingId f hf _ h => exact (hs.releaseAccruals postingId hf).of_agree h

/-! ## The calls -/

theorem InterestStep.of_quiet {α : Type} {p : Handler α} (hp : Quiet interestTables p) :
    p.EveryStep InterestStep := .of_every (fun _ _ _ => .quiet) hp

theorem upsertAccrual_interestStep {new : SavingsInterestAccrual} (hposted : new.posted = false)
    (hfree : new.postingId = none) : (upsertAccrual new).EveryStep InterestStep := by
  constructor
  · intro s
    refine .accrue new hposted hfree rfl ?_
    unfold Db.withAccrual
    dsimp only
    cases s.accrualOf new.accountId new.accrualDate with
    | some e => exact Db.Agree.refl _
    | none => exact Db.Agree.refl _
  · intro _
    trivial

theorem runAccrualForAccount_interestStep (now : DateTime) (accountId institutionId : Id)
    (throughDate : DateTime) :
    (runAccrualForAccount now accountId institutionId throughDate).EveryStep InterestStep := by
  apply runAccrualForAccount_everyStep (fun _ _ _ => .quiet)
  · exact fun new _ hposted hfree => upsertAccrual_interestStep hposted hfree
  · exact fun throughDate => InterestStep.of_quiet (.update (by decide) _ _)

/-- A posting takes up what it has read. -/
theorem run_postInterestInTx_takesUp {s t : Db} {now : DateTime} {accountId institutionId : Id}
    {postedById : Option Id} {batchId : Option String} {first last : SavingsInterestAccrual}
    {accrualIds : List Id} {x y : ℚ} {r : Id × SavingsInterestPosting}
    (h : (postInterestInTx now accountId institutionId postedById batchId first last accrualIds x
      y).run s = (.ok r, t)) :
    ∃ posting : SavingsInterestPosting, posting.accountId = accountId ∧
      posting.totalAmount = ofNumber x ∧ posting.reversedAt = none ∧
      (s.takeUp posting accrualIds).Agree interestTables t := by
  obtain ⟨txn, s₁, h₁, h⟩ := run_bind_eq_ok h
  obtain ⟨-, rfl⟩ := run_create_eq_ok h₁
  obtain ⟨account, s₂, h₂, h⟩ := run_bind_eq_ok h
  obtain ⟨-, -, -, rfl⟩ := run_update_eq_ok h₂
  obtain ⟨postingId, s₃, h₃, h⟩ := run_bind_eq_ok h
  obtain ⟨hid, rfl⟩ := run_create_eq_ok h₃
  obtain ⟨n, s₄, h₄, h⟩ := run_bind_eq_ok h
  rw [run_updateMany_eq_ok h₄] at h
  obtain ⟨-, rfl⟩ := Prod.mk.inj h
  refine ⟨{
    institutionId, accountId, periodStart := first.accrualDate, periodEnd := last.accrualDate,
    totalAmount := ofNumber x, transactionId := some txn, batchId, postedById }, rfl, rfl, rfl, ?_⟩
  -- The transaction and the account are in other tables.
  have hbefore : s.Agree interestTables ((s.insert .savingsTransaction
      { accountId, type := .interest, amount := ofNumber x, balanceAfter := ofNumber y,
        recordedById := postedById, createdAt := now }).modify .savingsAccount accountId
        (SavingsAccount.setBalance y)) :=
    (Db.Agree.insert (by decide) _ _).trans (Db.Agree.modify (by decide) _ _ _)
  intro m hm
  rw [hid]
  simp only [interestTables, List.mem_cons, List.not_mem_nil, or_false] at hm
  rcases hm with rfl | rfl
  · rw [Db.takeUp, Db.table_modifyAll_self, Db.table_modifyAll_self,
      Db.table_insert_of_ne (by decide), Db.table_insert_of_ne (by decide), hbefore _ (by decide), Db.nextId, Db.nextId,
      hbefore .savingsInterestPosting (by decide)]
    simp only [decide_eq_true_eq]
  · rw [Db.takeUp, Db.table_modifyAll_of_ne (by decide), Db.table_modifyAll_of_ne (by decide),
      Db.table_insert_self, Db.table_insert_self, hbefore _ (by decide)]

theorem run_reverseInterestInTx_givesBack {s t : Db} {auth : Auth} {now : DateTime} {postingId : Id}
    {posting : SavingsInterestPosting} {reason : String} {y : ℚ} {u : Unit}
    (h : (reverseInterestInTx auth now postingId posting reason y).run s = (.ok u, t)) :
    ∃ f : SavingsInterestPosting → SavingsInterestPosting, (∀ p, (f p).reversedAt ≠ none) ∧
      (s.releaseAccruals postingId f).Agree interestTables t := by
  obtain ⟨txn, s₁, h₁, h⟩ := run_bind_eq_ok h
  obtain ⟨-, rfl⟩ := run_create_eq_ok h₁
  obtain ⟨account, s₂, h₂, h⟩ := run_bind_eq_ok h
  obtain ⟨-, -, -, rfl⟩ := run_update_eq_ok h₂
  obtain ⟨updated, s₃, h₃, h⟩ := run_bind_eq_ok h
  obtain ⟨-, -, -, rfl⟩ := run_update_eq_ok h₃
  obtain ⟨n, s₄, h₄, h⟩ := run_bind_eq_ok h
  rw [run_updateMany_eq_ok h₄] at h
  obtain ⟨-, rfl⟩ := Prod.mk.inj h
  refine ⟨fun p => { p with
    reversedAt := some now, reversedById := some auth.userId, reversalReason := some reason },
    fun _ h => absurd h nofun, ?_⟩
  have hbefore : s.Agree interestTables ((s.insert .savingsTransaction
      { accountId := posting.accountId, type := .interest,
        amount := ofNumber (-toNumber posting.totalAmount), balanceAfter := ofNumber y,
        recordedById := some auth.userId, createdAt := now }).modify .savingsAccount
          posting.accountId (SavingsAccount.setBalance y)) :=
    (Db.Agree.insert (by decide) _ _).trans (Db.Agree.modify (by decide) _ _ _)
  intro m hm
  simp only [interestTables, List.mem_cons, List.not_mem_nil, or_false] at hm
  rcases hm with rfl | rfl
  · have hsame := hbefore .savingsInterestAccrual (by decide)
    rw [Db.releaseAccruals, Db.table_modifyAll_self, Db.table_modifyAll_self,
      Db.table_modify_of_ne (by decide), hsame, Db.table_modify_of_ne (by decide)]
    simp only [decide_eq_true_eq]
  · rw [Db.releaseAccruals, Db.table_modifyAll_of_ne (by decide),
      Db.table_modifyAll_of_ne (by decide), Db.table_modify_self, Db.table_modify_self, hbefore _ (by decide)]

/-! ## The protocol -/

def interestProtocol : Protocol Access Db Unit where
  rely _ _ := True
  guar lab s _ t _ := InterestStep lab s t
  refl _ := trivial
  trans _ _ := trivial

theorem interestProtocol_watches : interestProtocol.Watches interestTables :=
  fun _ _ _ _ h => ⟨trivial, .quiet h⟩

/-- Code that writes accruals and postings as the steps say. -/
def KeepsInterest {α : Type} (p : Handler α) : Prop :=
  ∀ s, p.Follows interestProtocol (fun _ _ _ => True) s ()

namespace KeepsInterest

variable {α β : Type}

theorem of_everyStep {p : Handler α} (hp : p.EveryStep InterestStep) : KeepsInterest p :=
  fun _ => (Follows.of_everyStep (fun _ _ _ _ h => ⟨trivial, h⟩) hp).imp fun _ _ _ _ => trivial

theorem of_quiet {p : Handler α} (hp : Quiet interestTables p) : KeepsInterest p :=
  .of_everyStep (InterestStep.of_quiet hp)

theorem bind {p : Handler β} {f : β → Handler α} (hp : KeepsInterest p)
    (hf : ∀ b, KeepsInterest (f b)) : KeepsInterest (p >>= f) :=
  fun s => (hp s).bind (fun t _ b _ => hf b t) fun _ _ _ _ => trivial

theorem mapEach {γ : Type} {xs : List γ} {body : γ → Handler α}
    (h : ∀ x, KeepsInterest (body x)) : KeepsInterest (Proc.mapEach xs body) := by
  induction xs with
  | nil => exact fun _ => trivial
  | cons x xs ih => exact (h x).bind fun _ => ih.bind fun _ _ => trivial

end KeepsInterest

theorem nodup_unpostedAccruals (s : Db) (accountId institutionId : Id) :
    ((s.unpostedAccruals accountId institutionId).map Prod.fst).Nodup := by
  have hperm := (List.perm_insertionSort
    (fun a b : Id × SavingsInterestAccrual => a.2.accrualDate ≤ b.2.accrualDate)
    ((s.table .savingsInterestAccrual).entries.filter fun a =>
      a.2.accountId = accountId ∧ a.2.institutionId = institutionId ∧
        a.2.posted = false)).map Prod.fst
  rw [Db.unpostedAccruals, hperm.nodup_iff]
  exact (s.table .savingsInterestAccrual).nodup_keys.sublist (List.filter_sublist.map Prod.fst)

theorem postInterestForAccount_keepsInterest (now : DateTime) (accountId institutionId : Id)
    (postedById : Option Id) (batchId : Option String) :
    KeepsInterest (postInterestForAccount now accountId institutionId postedById batchId) := by
  intro s
  refine interestProtocol_watches.query fun t _ => ?_
  have hids := nodup_unpostedAccruals t accountId institutionId
  generalize t.unpostedAccruals accountId institutionId = unposted at hids ⊢
  refine KeepsInterest.of_everyStep ?_ t
  split
  · dsimp only
    split
    · trivial
    · refine EveryStep.bind (InterestStep.of_quiet (.findUniqueOrThrow _ _)) fun account => ?_
      refine EveryStep.bind (EveryStep.transaction (fun s => .quiet (Db.Agree.refl s)) ?_)
        fun _ => trivial
      intro s r t hrun
      obtain ⟨posting, haccount, htotal, hstands, hagree⟩ := run_postInterestInTx_takesUp hrun
      have hamounts : (unposted.map fun a => toNumber a.2.amountAccrued) =
          (unposted.map fun a => a.2.amountAccrued).map toNumber := by
        rw [List.map_map]
        rfl
      have hids' : (unposted.map fun a => (a.1, a.2.amountAccrued)).map Prod.fst =
          unposted.map Prod.fst := by
        rw [List.map_map]
        rfl
      refine .post posting (unposted.map fun a => (a.1, a.2.amountAccrued)) (hids' ▸ hids) ?_
        hstands (haccount ▸ rfl) (hids' ▸ hagree)
      rw [htotal, hamounts, ← toNumber_sum, round2_toNumber, ofNumber_toNumber, List.map_map]
      rfl
  · trivial

theorem postAllForInstitution_keepsInterest (now : DateTime) (institutionId : Id)
    (postedById : Option Id) (batchId : Option String) :
    KeepsInterest (postAllForInstitution now institutionId postedById batchId) := by
  refine .bind (.of_quiet (.query _)) fun accounts => ?_
  refine .bind (.mapEach fun accountId => ?_) fun _ => .of_quiet (.pure _)
  exact postInterestForAccount_keepsInterest _ _ _ _ _

theorem reverseInterest_interestStep (auth : Auth) (now : DateTime) (postingId : Id)
    (reason : String) : (reverseInterest auth now postingId reason).EveryStep InterestStep := by
  refine (EveryStep.require _ _).bind fun _ => ?_
  refine EveryStep.bind (InterestStep.of_quiet (.query _)) fun found => ?_
  refine (EveryStep.orFail _ _).bind fun posting => (EveryStep.require _ _).bind fun _ => ?_
  refine EveryStep.bind (InterestStep.of_quiet (.findUniqueOrThrow _ _)) fun account => ?_
  refine EveryStep.bind (EveryStep.transaction (fun s => .quiet (Db.Agree.refl s)) ?_) fun _ =>
    InterestStep.of_quiet ((Quiet.create (by decide) _).bind fun _ => .pure _)
  intro s u t hrun
  obtain ⟨f, hf, hagree⟩ := run_reverseInterestInTx_givesBack hrun
  exact .reverse postingId f hf rfl hagree

/-! ## Calls at the same time -/

inductive InterestCall
  | accrueInterest (auth : Auth) (now : DateTime) (accountId : Id) (date : Option DateTime)
  | accrueAllInterest (auth : Auth) (now : DateTime) (date : Option DateTime)
  | runSavingsInterestAccrual (now : DateTime)
  | postInterest (auth : Auth) (now : DateTime) (accountId : Id)
  | postAllInterest (auth : Auth) (now : DateTime) (batchId : String)
  | runSavingsInterestPosting (now : DateTime) (institutionIds : List Id) (batchId : String)
  | reverseInterest (auth : Auth) (now : DateTime) (postingId : Id) (reason : String)

/-- The code a call runs. -/
def InterestCall.handler : InterestCall → Handler Unit
  | accrueInterest auth now accountId date =>
    NexusEfos.accrueInterest auth now accountId date >>= fun _ => pure ()
  | accrueAllInterest auth now date =>
    NexusEfos.accrueAllInterest auth now date >>= fun _ => pure ()
  | runSavingsInterestAccrual now => NexusEfos.runSavingsInterestAccrual now >>= fun _ => pure ()
  | postInterest auth now accountId =>
    NexusEfos.postInterest auth now accountId >>= fun _ => pure ()
  | postAllInterest auth now batchId =>
    NexusEfos.postAllInterest auth now batchId >>= fun _ => pure ()
  | runSavingsInterestPosting now institutionIds batchId =>
    NexusEfos.runSavingsInterestPosting now institutionIds batchId >>= fun _ => pure ()
  | reverseInterest auth now postingId reason =>
    NexusEfos.reverseInterest auth now postingId reason

theorem InterestCall.keepsInterest (call : InterestCall) : KeepsInterest call.handler := by
  have hlog : ∀ {α : Type} (row : AuditLog) (a : α), KeepsInterest (do
      let _ ← create .auditLog row
      return a : Handler α) := fun _ _ =>
    .of_quiet ((Quiet.create (by decide) _).bind fun _ => .pure _)
  have hend : ∀ {α : Type} {p : Handler α}, KeepsInterest p →
      KeepsInterest (p >>= fun _ => pure ()) := fun hp => hp.bind fun _ => .of_quiet (.pure _)
  have hrun := fun now accountId institutionId throughDate => KeepsInterest.of_everyStep
    (runAccrualForAccount_interestStep now accountId institutionId throughDate)
  cases call with
  | accrueInterest auth now accountId date =>
    exact hend ((hrun _ _ _ _).bind fun _ => hlog _ _)
  | accrueAllInterest auth now date =>
    refine hend (.bind (.of_quiet (.query _)) fun accounts => ?_)
    exact (KeepsInterest.mapEach fun acc => hrun _ _ _ _).bind fun _ => hlog _ _
  | runSavingsInterestAccrual now =>
    refine hend (.bind (.of_quiet (.query _)) fun accounts => ?_)
    exact (KeepsInterest.mapEach fun acc => hrun _ _ _ _).bind fun _ => .of_quiet (.pure _)
  | postInterest auth now accountId =>
    refine hend (.bind (postInterestForAccount_keepsInterest _ _ _ _ _) fun found => ?_)
    exact (KeepsInterest.of_everyStep (EveryStep.orFail _ _)).bind fun _ => hlog _ _
  | postAllInterest auth now batchId =>
    exact hend ((postAllForInstitution_keepsInterest _ _ _ _).bind fun _ => hlog _ _)
  | runSavingsInterestPosting now institutionIds batchId =>
    refine hend (.bind (.mapEach fun institutionId => ?_) fun _ => .of_quiet (.pure _))
    exact postAllForInstitution_keepsInterest _ _ _ _
  | reverseInterest auth now postingId reason =>
    exact .of_everyStep (reverseInterest_interestStep ..)

/-- Calls that run at the same time. -/
def interestPool {ι : Type} (calls : ι → InterestCall) (s : Db) : Pool ι Access Db Failure Unit :=
  ⟨fun i => (calls i).handler, s⟩

/-! ## What the postings count -/

/-- The postings that a statement adds, with the accruals they count. -/
def interestEvents (lab : Access) (s t : Db) : List (Id × List (Id × Cents)) :=
  match lab.interest with
  | some (.post _ rows) =>
    if (t.find? .savingsInterestPosting (s.nextId .savingsInterestPosting)).isSome = true then
      [(s.nextId .savingsInterestPosting, rows)]
    else []
  | _ => []

/-- The posting counts the accrual: it has been added with it since, or it had taken it up. -/
def CountsAccrual (s : Db) (added : List (Id × List (Id × Cents)))
    (postingId accrualId : Id) : Prop :=
  (∃ rows, (postingId, rows) ∈ added ∧ accrualId ∈ rows.map Prod.fst) ∨
    ∃ a ∈ s.find? .savingsInterestAccrual accrualId, a.postingId = some postingId

/-- What holds of the postings so far. -/
structure CountedOnce (s t : Db) (added : List (Id × List (Id × Cents))) : Prop where
  booked : t.InterestBooked
  there : ∀ p id, CountsAccrual s added p id → (t.find? .savingsInterestPosting p).isSome
  taken : ∀ p id, CountsAccrual s added p id → t.Stands p →
    ∃ a ∈ t.find? .savingsInterestAccrual id, a.postingId = some p

theorem interestEvents_eq_nil {lab : Access} {s t : Db}
    (h : t.find? .savingsInterestPosting (s.nextId .savingsInterestPosting) = none) :
    interestEvents lab s t = [] := by
  unfold interestEvents
  split
  · rw [h]
    rfl
  · rfl

theorem CountsAccrual.of_append {s : Db} {added new : List (Id × List (Id × Cents))} {p id : Id}
    (h : CountsAccrual s (added ++ new) p id) :
    CountsAccrual s added p id ∨ ∃ rows, (p, rows) ∈ new ∧ id ∈ rows.map Prod.fst := by
  rcases h with ⟨rows, hmem, hid⟩ | hstart
  · rcases List.mem_append.mp hmem with hold | hnew
    · exact .inl (.inl ⟨rows, hold, hid⟩)
    · exact .inr ⟨rows, hnew, hid⟩
  · exact .inl (.inr hstart)

namespace CountedOnce

variable {s t u : Db} {added : List (Id × List (Id × Cents))}

/-- A statement that adds no posting. -/
theorem keep (ht : CountedOnce s t added) (hbooked : u.InterestBooked)
    (hpostings : ∀ p, (t.find? .savingsInterestPosting p).isSome →
      (u.find? .savingsInterestPosting p).isSome)
    (hstands : ∀ p, u.Stands p → t.Stands p)
    (haccruals : ∀ id a p, t.find? .savingsInterestAccrual id = some a → a.postingId = some p →
      u.Stands p → ∃ a' ∈ u.find? .savingsInterestAccrual id, a'.postingId = some p) :
    CountedOnce s u added where
  booked := hbooked
  there p id hcounts := hpostings p (ht.there p id hcounts)
  taken p id hcounts hp := by
    obtain ⟨a, ha, hnamed⟩ := ht.taken p id hcounts (hstands p hp)
    exact haccruals id a p ha hnamed hp

theorem step {lab : Access} (ht : CountedOnce s t added) (hstep : InterestStep lab t u)
    (hlab : lab.InterestCurrent t) : CountedOnce s u (added ++ interestEvents lab t u) := by
  have hbooked := ht.booked.step hstep hlab
  have hfresh : t.find? .savingsInterestPosting (t.nextId .savingsInterestPosting) = none :=
    OrderedMap.get?_nextKey _
  cases hstep with
  | quiet h =>
    have hpostings := fun p => h.find? (m := .savingsInterestPosting) (by decide) p
    rw [interestEvents_eq_nil ((hpostings _).trans hfresh), List.append_nil]
    apply ht.keep hbooked
    · intro p hp
      rwa [hpostings]
    · intro p hp
      unfold Db.Stands at hp ⊢
      rwa [hpostings] at hp
    · intro id a p ha hp _
      exact ⟨a, (h.find? (by decide) id).trans ha, hp⟩
  | accrue new hposted hfree heq h =>
    have hpostings : ∀ p, u.find? .savingsInterestPosting p =
        t.find? .savingsInterestPosting p := by
      intro p
      rw [h.find? (by decide)]
      unfold Db.withAccrual
      split
      · exact Db.find?_modify_of_ne (by decide) _ _ _ _
      · exact Db.find?_insert_of_ne (by decide) _ _ _
    rw [interestEvents_eq_nil ((hpostings _).trans hfresh), List.append_nil]
    apply ht.keep hbooked
    · intro p hp
      rwa [hpostings]
    · intro p hp
      unfold Db.Stands at hp ⊢
      rwa [hpostings] at hp
    · intro id a p ha hp _
      rw [h.find? (by decide)]
      unfold Db.withAccrual
      split
      · rw [Db.find?_modify]
        split
        · rw [ha]
          exact ⟨_, rfl, hp⟩
        · exact ⟨a, ha, hp⟩
      · rw [Db.find?_insert]
        split
        · next hid =>
          rw [hid, Db.find?, Db.nextId, OrderedMap.get?_nextKey] at ha
          exact absurd ha (by simp)
        · exact ⟨a, ha, hp⟩
  | post posting rows hids htotal hstands heq h =>
    obtain ⟨new, hnew⟩ : ∃ p, p = t.nextId .savingsInterestPosting := ⟨_, rfl⟩
    have hpostings : ∀ p, u.find? .savingsInterestPosting p =
        if p = new then some posting else t.find? .savingsInterestPosting p := by
      intro p
      rw [h.find? (by decide), Db.takeUp, Db.find?, Db.table_modifyAll_of_ne (by decide),
        ← Db.find?, Db.find?_insert, hnew]
    have haccruals : ∀ id, u.find? .savingsInterestAccrual id =
        (t.find? .savingsInterestAccrual id).map fun a =>
          if id ∈ rows.map Prod.fst then { a with posted := true, postingId := some new }
          else a := by
      intro id
      rw [h.find? (by decide), Db.takeUp, Db.find?_modifyAll, Db.find?_insert_of_ne (by decide),
        hnew]
    unfold Access.InterestCurrent at hlab
    rw [heq] at hlab
    have hfree : ∀ id a, t.find? .savingsInterestAccrual id = some a → id ∈ rows.map Prod.fst →
        a.postingId = none := by
      intro id a ha hid
      obtain ⟨r, hr, rfl⟩ := List.mem_map.mp hid
      obtain ⟨a', ha', -, hunposted, -⟩ := hlab r hr
      rw [Option.mem_def, ha] at ha'
      rw [← Option.some.inj ha', ht.booked.named r.1 a ha, Option.isSome_eq_false_iff,
        Option.isNone_iff_eq_none] at hunposted
      exact hunposted
    have hevents : interestEvents lab t u = [(new, rows)] := by
      unfold interestEvents
      rw [heq]
      dsimp only
      rw [← hnew, hpostings, if_pos rfl]
      rfl
    have hcounts : ∀ p id, CountsAccrual s (added ++ [(new, rows)]) p id →
        (p ≠ new ∧ CountsAccrual s added p id) ∨ (p = new ∧ id ∈ rows.map Prod.fst) := by
      intro p id hp
      rcases hp.of_append with hold | ⟨rows', hmem, hid⟩
      · refine .inl ⟨?_, hold⟩
        rintro rfl
        have hthere := ht.there _ id hold
        rw [hnew, hfresh] at hthere
        exact absurd hthere (by decide)
      · obtain ⟨rfl, rfl⟩ := Prod.mk.inj (List.mem_singleton.mp hmem)
        exact .inr ⟨rfl, hid⟩
    rw [hevents]
    refine ⟨hbooked, ?_, ?_⟩
    · intro p id hp
      rw [hpostings]
      rcases hcounts p id hp with ⟨hne, hold⟩ | ⟨rfl, -⟩
      · rw [if_neg hne]
        exact ht.there p id hold
      · rw [if_pos rfl]
        rfl
    · intro p id hp hstandsU
      rcases hcounts p id hp with ⟨hne, hold⟩ | ⟨rfl, hid⟩
      · have hstandsT : t.Stands p := by
          unfold Db.Stands at hstandsU ⊢
          rwa [hpostings, if_neg hne] at hstandsU
        obtain ⟨a, ha, hnamed⟩ := ht.taken p id hold hstandsT
        have hother : id ∉ rows.map Prod.fst := by
          intro hid
          rw [hfree id a ha hid] at hnamed
          exact absurd hnamed (by simp)
        rw [Option.mem_def] at ha
        rw [haccruals, ha, Option.map_some, if_neg hother]
        exact ⟨a, rfl, hnamed⟩
      · obtain ⟨r, hr, rfl⟩ := List.mem_map.mp hid
        obtain ⟨a, ha, -⟩ := hlab r hr
        rw [Option.mem_def] at ha
        rw [haccruals, ha, Option.map_some, if_pos hid]
        exact ⟨_, rfl, rfl⟩
  | reverse postingId f hf heq h =>
    have hpostings : ∀ p, u.find? .savingsInterestPosting p =
        if p = postingId then (t.find? .savingsInterestPosting p).map f
        else t.find? .savingsInterestPosting p := by
      intro p
      rw [h.find? (by decide), Db.releaseAccruals, Db.find?, Db.table_modifyAll_of_ne (by decide),
        ← Db.find?, Db.find?_modify]
    have hreversed : ¬ u.Stands postingId := by
      rintro ⟨posting, hposting, hstands⟩
      rw [Option.mem_def, hpostings, if_pos rfl] at hposting
      obtain ⟨posting', -, rfl⟩ := Option.map_eq_some_iff.mp hposting
      exact hf posting' hstands
    have hevents : interestEvents lab t u = [] := by
      unfold interestEvents
      rw [heq]
    rw [hevents, List.append_nil]
    apply ht.keep hbooked
    · intro p hp
      rw [hpostings]
      split
      · rw [Option.isSome_map]
        exact hp
      · exact hp
    · intro p hp
      have hne : p ≠ postingId := fun heq => hreversed (heq ▸ hp)
      unfold Db.Stands at hp ⊢
      rwa [hpostings, if_neg hne] at hp
    · intro id a p ha hp hstands
      have hother : a.postingId ≠ some postingId := by
        intro heq
        exact hreversed (Option.some.inj (hp.symm.trans heq) ▸ hstands)
      rw [h.find? (by decide), Db.releaseAccruals, Db.find?_modifyAll,
        Db.find?_modify_of_ne (by decide), ha, Option.map_some, if_neg hother]
      exact ⟨a, rfl, hp⟩

end CountedOnce

/-- As long as what is written is still as it was read, no accrual is counted by two postings that
stand, and those of an account come to what is posted of its interest. -/
theorem interest_paid_once {ι : Type} [DecidableEq ι] (calls : ι → InterestCall) {s : Db}
    (hs : s.InterestBooked) {sched : List ι}
    (hA : (interestPool calls s).Allowed Access.InterestCurrent sched) :
    let t := ((interestPool calls s).run sched).state
    let added := (interestPool calls s).history interestEvents sched
    (∀ accrualId p p', CountsAccrual s added p accrualId → CountsAccrual s added p' accrualId →
        t.Stands p → t.Stands p' → p = p') ∧
      ∀ accountId, t.postedTotal accountId = t.accruedTotal accountId := by
  intro t added
  have hstart : CountedOnce s s [] := by
    refine ⟨hs, ?_, ?_⟩
    · rintro p id (⟨rows, hmem, -⟩ | ⟨a, ha, hp⟩)
      · exact absurd hmem List.not_mem_nil
      · obtain ⟨posting, hposting, -⟩ := hs.stands id a p ha hp
        exact Option.isSome_iff_exists.mpr ⟨posting, hposting⟩
    · rintro p id (⟨rows, hmem, -⟩ | hnamed) _
      · exact absurd hmem List.not_mem_nil
      · exact hnamed
  have hfollows : (interestPool calls s).Follows interestProtocol (fun _ _ => True) fun _ => () :=
    fun i => (calls i).keepsInterest s
  have hend : CountedOnce s t ([] ++ added) :=
    hfollows.run_history (K := fun _ _ => True) (fun _ _ _ _ => trivial)
      (fun _ _ _ _ _ _ hstep _ hlab ht _ => ⟨ht.step hstep hlab, trivial⟩) hstart
      (fun _ => trivial) (Pool.allowedAfter_of_allowed hA [])
  rw [List.nil_append] at hend
  constructor
  · intro id p p' hp hp' hstands hstands'
    obtain ⟨a, ha, hnamed⟩ := hend.taken p id hp hstands
    obtain ⟨a', ha', hnamed'⟩ := hend.taken p' id hp' hstands'
    rw [Option.mem_def] at ha ha'
    rw [← Option.some.inj (ha.symm.trans ha'), hnamed] at hnamed'
    exact Option.some.inj hnamed'
  · exact hend.booked.postedTotal_eq

/-- An account of 100.00 that has earned 5.00. -/
def earningAccount : Db :=
  (Db.empty.insert .savingsAccount
    { institutionId := 1, customerId := 1, accountNumber := "S-1", balance := 10000,
      ledgerBalance := 10000 }).insert .savingsInterestAccrual
    { institutionId := 1, accountId := 1, accrualDate := 0, amountAccrued := 500 }

theorem interestBooked_earningAccount : earningAccount.InterestBooked := by
  have hrow : ∀ id a, earningAccount.find? .savingsInterestAccrual id = some a →
      a.posted = false ∧ a.postingId = none := by
    intro id a ha
    rw [earningAccount, Db.find?_insert] at ha
    split at ha
    · rw [← Option.some.inj ha]
      exact ⟨rfl, rfl⟩
    · exact absurd ha nofun
  refine ⟨?_, ?_, ?_⟩
  · intro id a ha
    obtain ⟨hposted, hfree⟩ := hrow id a ha
    rw [hposted, hfree]
    rfl
  · intro id a p ha hp
    rw [(hrow id a ha).2] at hp
    exact absurd hp nofun
  · intro p posting hposting
    exact absurd hposting nofun

/-- The interest is posted, reversed, and posted again. -/
def postAgain : Fin 3 → InterestCall
  | 0 => .postInterest ⟨1, 2⟩ 1 1
  | 1 => .reverseInterest ⟨1, 3⟩ 2 1 "wrong rate"
  | 2 => .runSavingsInterestPosting 3 [1] "b"

theorem interest_paid_once_postAgain :
    let c := interestPool postAgain earningAccount
    let sched := [0, 0, 0, 0, 1, 1, 1, 1, 2, 2, 2, 2]
    (c.run sched).state.postedTotal 1 = (c.run sched).state.accruedTotal 1 :=
  (interest_paid_once postAgain interestBooked_earningAccount (by decide +kernel)).2 1

/-- Two users post the interest at the same time: it is paid twice. -/
theorem interest_paid_twice :
    let c := interestPool (fun _ : Fin 2 => .postInterest ⟨1, 2⟩ 1 1) earningAccount
    let sched : List (Fin 2) := [0, 1, 0, 1, 0, 1]
    let t := (c.run sched).state
    let added := c.history interestEvents sched
    ¬ ((∀ accrualId p p', CountsAccrual earningAccount added p accrualId →
          CountsAccrual earningAccount added p' accrualId → t.Stands p → t.Stands p' → p = p') ∧
        ∀ accountId, t.postedTotal accountId = t.accruedTotal accountId) := by
  intro c sched t added h
  have htotals : t.postedTotal 1 = 1000 ∧ t.accruedTotal 1 = 500 := by decide +kernel
  have hequal := h.2 1
  rw [htotals.1, htotals.2] at hequal
  exact absurd hequal (by decide)

end NexusEfos
