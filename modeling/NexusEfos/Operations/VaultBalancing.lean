/-
How a vault opens and closes, and what its cash does meanwhile.

A vault is closed after it has been balanced for the day, and the balancing stores what the
vault should hold when it is made.  There is one balancing for each holder and day, and the cash
may move after it: the close looks for the record and not at its amount.  A receipt, a withdrawal
or a disbursement has looked at the status in an earlier statement, and an approved transfer does
not look at it at all.  So a vault closes reconciled, and stays frozen, as far as its cash moves
only while it is open, and not between the balancing of the day and the close.
-/
import NexusEfos.Library.History
import NexusEfos.Operations.CashCustody

namespace NexusEfos

open Proc

/-! ## The endpoints -/

/-- The record a route on a vault leaves. -/
def vaultLog (auth : Auth) (action : String) (vaultId : Id) : AuditLog :=
  { institutionId := auth.institutionId, userId := some auth.userId, action, resource := "vault",
    resourceId := some vaultId }

/-- `POST /vaults`. -/
def createVault (auth : Auth) (name : String) : Handler Id := do
  Proc.require (1 ≤ jsLength name) .invalid
  let vault ← create .vault { institutionId := auth.institutionId, name }
  let _ ← create .auditLog (vaultLog auth "vault.create" vault)
  return vault

/-- `POST /vaults/:id/open`. -/
def openVault (auth : Auth) (now : DateTime) (vaultId : Id) : Handler Vault := do
  let found ← findById .vault vaultId fun v => v.institutionId = auth.institutionId
  let vault ← Proc.orFail found (.http 404 "Vault not found")
  Proc.require (vault.status ≠ .opened) (.http 400 "Vault is already open")
  let updated ← update .vault vaultId fun v =>
    { v with status := .opened, openedById := some auth.userId, openedAt := some now }
  let _ ← create .auditLog (vaultLog auth "vault.open" vaultId)
  return updated

/-- The record is the balancing of the holder for the day. -/
def CashBalancing.IsOf (c : CashBalancing) (holder : CashHolder) (date : DateTime) : Prop :=
  (c.holderType, c.holderId) = holder ∧ c.balancingDate = date

instance (c : CashBalancing) (holder : CashHolder) (date : DateTime) :
    Decidable (c.IsOf holder date) :=
  inferInstanceAs (Decidable (_ ∧ _))

/-- `POST /vaults/:id/close`. -/
def closeVault (auth : Auth) (now : DateTime) (vaultId : Id) : Handler Vault := do
  let found ← findById .vault vaultId fun v => v.institutionId = auth.institutionId
  let vault ← Proc.orFail found (.http 404 "Vault not found")
  Proc.require (vault.status ≠ .closed) (.http 400 "Vault is already closed")
  let todayStart := startOfDay now
  let todaysBalancing ← findFirst .cashBalancing fun _ c =>
    c.IsOf (.vault, vaultId) todayStart ∧ c.status = .reconciled
  let _ ← Proc.orFail todaysBalancing (.http 400
    "This vault must be balanced (and any variance approved) for today before it can be closed")
  let updated ← updateAs { closesVault := some (vaultId, now) } .vault vaultId fun v =>
    { v with status := .closed, closedById := some auth.userId, closedAt := some now }
  let _ ← create .auditLog (vaultLog auth "vault.close" vaultId)
  return updated

/-- `balancingSchema`. -/
structure BalancingBody where
  holderType : CashHolderType
  holderId : Id
  balancingDate : DateTime
  countedAmount : ℚ
  investigationNotes : Option String := none

/-- `cashBalancing.create`.  A holder has one balancing for each day. -/
def createBalancing (row : CashBalancing) : Handler Id :=
  Proc.attempt { balances := some (row.holderType, row.holderId, row.expectedAmount) } fun s =>
    if ∃ c ∈ (s.table .cashBalancing).values,
        c.IsOf (row.holderType, row.holderId) row.balancingDate then
      (.error uniqueViolation, s)
    else (.ok (s.nextId .cashBalancing), s.insert .cashBalancing row)

/-- `POST /balancings`. -/
def recordBalancing (auth : Auth) (now : DateTime) (body : BalancingBody) : Handler Id := do
  Proc.require (0 ≤ body.countedAmount) .invalid
  let found ← getHolderBalance body.holderType body.holderId
  let expectedAmount ← Proc.orFail found (.http 404 "Holder not found")
  let balancingDate := startOfDay body.balancingDate
  let existing ← findFirst .cashBalancing fun _ c =>
    c.IsOf (body.holderType, body.holderId) balancingDate
  Proc.require (existing.isNone = true)
    (.http 400 "A balancing record already exists for this holder and date")
  let variance := round2 (body.countedAmount - toNumber expectedAmount)
  Proc.require (¬ (1 / 100 ≤ |variance| ∧ body.investigationNotes.getD "" = ""))
    (.http 400 "A variance was detected — investigation notes are required")
  let balancing ← createBalancing
    { institutionId := auth.institutionId, holderType := body.holderType,
      holderId := body.holderId, balancingDate, expectedAmount,
      countedAmount := ofNumber body.countedAmount, variance := ofNumber variance,
      investigationNotes := body.investigationNotes,
      status := if |variance| < 1 / 100 then .reconciled else .variancePendingApproval,
      reconciledById := if |variance| < 1 / 100 then some auth.userId else none,
      reconciledAt := if |variance| < 1 / 100 then some now else none }
  if 1 / 100 ≤ |variance| then
    let _ ← create .approvalRequest
      { institutionId := auth.institutionId, type := .cashBalancingVariance,
        targetType := "CashBalancing", targetId := balancing, requestedById := auth.userId }
  let _ ← create .auditLog
    { institutionId := auth.institutionId, userId := some auth.userId,
      action := "cash_balancing.recorded", resource := "cash_balancing",
      resourceId := some balancing }
  return balancing

/-! ## What is to hold -/

namespace Db

def vaultStatus (s : Db) (vaultId : Id) : Option VaultStatus :=
  (s.find? .vault vaultId).map Vault.status

/-- The vault is as its balancing of the day on which it was closed says. -/
def ClosedReconciled (s : Db) (vaultId : Id) : Prop :=
  ∃ v ∈ s.find? .vault vaultId, ∃ closedAt ∈ v.closedAt,
    ∃ c ∈ (s.table .cashBalancing).values, c.IsOf (.vault, vaultId) (startOfDay closedAt) ∧
      c.status = .reconciled ∧ c.expectedAmount = v.balance

instance (s : Db) (vaultId : Id) : Decidable (s.ClosedReconciled vaultId) :=
  inferInstanceAs (Decidable (∃ v ∈ s.find? .vault vaultId, ∃ closedAt ∈ v.closedAt,
    ∃ c ∈ (s.table .cashBalancing).values, _ ∧ _))

end Db

/-! ## When it holds -/

/-- What happens to a vault: it is balanced for a day, or its cash moves. -/
inductive VaultEvent
  | balanced (date : DateTime)
  | moved
  deriving DecidableEq

/-- A balancing that a statement records. -/
def balancingEvents (vaultId : Id) (s t : Db) : List VaultEvent :=
  match t.find? .cashBalancing (s.nextId .cashBalancing) with
  | some c => if (c.holderType, c.holderId) = (.vault, vaultId) then [.balanced c.balancingDate] else []
  | none => []

def vaultEvents (vaultId : Id) (_ : Access) (s t : Db) : List VaultEvent :=
  balancingEvents vaultId s t ++
    if t.holding? (.vault, vaultId) = s.holding? (.vault, vaultId) then [] else [.moved]

/-- The cash has moved since the vault was balanced for the day. -/
def MovedSince (date : DateTime) (h : List VaultEvent) : Prop :=
  .moved ∈ h.reverse.takeWhile (· ≠ .balanced date)

instance (date : DateTime) (h : List VaultEvent) : Decidable (MovedSince date h) :=
  inferInstanceAs (Decidable (_ ∈ _))

namespace Access

/-- A receipt, or a withdrawal or a disbursement that the vault covers. -/
def Enters (lab : Access) (vaultId : Id) (s : Db) : Prop :=
  ∃ x ∈ lab.movesCash, x.1 = vaultId ∧ ∃ b ∈ s.holding? (.vault, vaultId),
    0 ≤ x.2 ∨ 0 ≤ toNumber b + x.2

/-- The approval of a transfer from or to the vault that the source covers. -/
def Transfers (lab : Access) (vaultId : Id) (s : Db) : Prop :=
  ∃ r ∈ lab.resolves, r.approved = true ∧ s.requestStatus r.requestId = some .pending ∧
    r.request.type = .cashTransfer ∧ ∃ t ∈ s.find? .cashTransfer r.request.targetId,
      (t.source = (.vault, vaultId) ∨ t.destination = (.vault, vaultId)) ∧
        ∃ b ∈ s.holding? t.source, t.amount ≤ b

/-- The cash of the vault moves only while it is open, its balancings store what it holds when
they are recorded, and it is closed only if its cash has not moved since the balancing of the
day. -/
structure KeepsVault (vaultId : Id) (past : List VaultEvent) (lab : Access) (s : Db) : Prop where
  moves : lab.Enters vaultId s ∨ lab.Transfers vaultId s → s.vaultStatus vaultId = some .opened
  balances : ∀ x ∈ lab.balances, (x.1, x.2.1) = (.vault, vaultId) →
    s.holding? (.vault, vaultId) = some x.2.2
  closes : ∀ x ∈ lab.closesVault, x.1 = vaultId → ¬ MovedSince (startOfDay x.2) past

instance (lab : Access) (vaultId : Id) (s : Db) : Decidable (lab.Enters vaultId s) :=
  inferInstanceAs (Decidable (∃ x ∈ lab.movesCash, _))

instance (lab : Access) (vaultId : Id) (s : Db) : Decidable (lab.Transfers vaultId s) :=
  inferInstanceAs (Decidable (∃ r ∈ lab.resolves, _ ∧ _ ∧ _ ∧ ∃ t ∈ s.find? .cashTransfer _, _))

instance (vaultId : Id) (past : List VaultEvent) (lab : Access) (s : Db) :
    Decidable (lab.KeepsVault vaultId past s) :=
  decidable_of_iff ((lab.Enters vaultId s ∨ lab.Transfers vaultId s →
      s.vaultStatus vaultId = some .opened) ∧
    (∀ x ∈ lab.balances, (x.1, x.2.1) = (.vault, vaultId) →
      s.holding? (.vault, vaultId) = some x.2.2) ∧
    ∀ x ∈ lab.closesVault, x.1 = vaultId → ¬ MovedSince (startOfDay x.2) past)
    ⟨fun h => ⟨h.1, h.2.1, h.2.2⟩, fun h => ⟨h.moves, h.balances, h.closes⟩⟩

end Access

/-! ## Steps -/

/-- What a statement does to a vault that is there. -/
inductive VaultMoves (lab : Access) (id : Id) (s : Db) (v v' : Vault) : Prop
  | kept (balance : v'.balance = v.balance) (status : v'.status = .closed → v.status = .closed)
  | moved (moves : lab.Enters id s ∨ lab.Transfers id s) (status : v'.status = v.status)
  | closed (now : DateTime) (closes : lab.closesVault = some (id, now))
      (balance : v'.balance = v.balance) (closedAt : v'.closedAt = some now)

/-- A balancing stays what it is, and one that is RECONCILED stays so. -/
structure CashBalancing.Stays (c c' : CashBalancing) : Prop where
  holder : (c'.holderType, c'.holderId) = (c.holderType, c.holderId)
  date : c'.balancingDate = c.balancingDate
  expected : c'.expectedAmount = c.expectedAmount
  reconciled : c.status = .reconciled → c'.status = .reconciled

namespace CashBalancing.Stays

variable {c c' c'' : CashBalancing}

theorem refl (c : CashBalancing) : c.Stays c := ⟨rfl, rfl, rfl, fun h => h⟩

theorem trans (h : c.Stays c') (h' : c'.Stays c'') : c.Stays c'' where
  holder := h'.holder.trans h.holder
  date := h'.date.trans h.date
  expected := h'.expected.trans h.expected
  reconciled := fun hc => h'.reconciled (h.reconciled hc)

theorem isOf (h : c.Stays c') {holder : CashHolder} {date : DateTime} (hc : c.IsOf holder date) :
    c'.IsOf holder date := by
  constructor
  · exact h.holder.trans hc.1
  · exact h.date.trans hc.2

end CashBalancing.Stays

/-- The balancings are kept. -/
def Db.KeepsBalancings (s t : Db) : Prop := s.KeepsRows .cashBalancing CashBalancing.Stays t

/-- A statement records a balancing, and is alone in what it does. -/
structure Access.Records (lab : Access) (s t : Db) (id : Id) (c : CashBalancing) : Prop where
  label : lab.balances = some (c.holderType, c.holderId, c.expectedAmount)
  next : id = s.nextId .cashBalancing
  first : ∀ id' c', s.find? .cashBalancing id' = some c' →
    ¬ c'.IsOf (c.holderType, c.holderId) c.balancingDate
  vaults : t.table .vault = s.table .vault

structure VaultStep (lab : Access) (s t : Db) : Prop where
  vaults : ∀ id v, s.find? .vault id = some v →
    ∃ v', t.find? .vault id = some v' ∧ VaultMoves lab id s v v'
  balancings : s.KeepsBalancings t
  recorded : ∀ id c, s.find? .cashBalancing id = none → t.find? .cashBalancing id = some c →
    lab.Records s t id c

section Steps

variable {s t u : Db} {lab : Access} {vaultId : Id}

theorem Db.KeepsBalancings.of_table_eq (h : t.table .cashBalancing = s.table .cashBalancing) :
    s.KeepsBalancings t := Db.KeepsRows.of_table_eq CashBalancing.Stays.refl h

theorem Db.KeepsBalancings.trans (h : s.KeepsBalancings t) (h' : t.KeepsBalancings u) :
    s.KeepsBalancings u := Db.KeepsRows.trans (fun _ _ _ => CashBalancing.Stays.trans) h h'

namespace VaultStep

/-- The balancings stay as they are. -/
theorem of_vaults (hvaults : ∀ id v, s.find? .vault id = some v →
      ∃ v', t.find? .vault id = some v' ∧ VaultMoves lab id s v v')
    (h : t.table .cashBalancing = s.table .cashBalancing) : VaultStep lab s t where
  vaults := hvaults
  balancings := .of_table_eq h
  recorded := by
    intro id c hnone hc
    rw [Db.find?, h] at hc
    exact absurd (hnone.symm.trans hc) (by simp)

/-- The vaults stay as they are. -/
theorem vaults_of_eq (h : t.table .vault = s.table .vault) (id : Id) (v : Vault)
    (hv : s.find? .vault id = some v) :
    ∃ v', t.find? .vault id = some v' ∧ VaultMoves lab id s v v' := by
  refine ⟨v, ?_, .kept rfl fun h => h⟩
  rw [Db.find?, h]
  exact hv

theorem of_agree (h : s.Agree [.vault, .cashBalancing] t) : VaultStep lab s t :=
  of_vaults (vaults_of_eq (h _ (by decide))) (h _ (by decide))

/-- A new vault is no other vault. -/
theorem of_insert (v : Vault) : VaultStep lab s (s.insert .vault v) := by
  have hkept : s.KeepsRows .vault Eq (s.insert .vault v) :=
    Db.KeepsRows.insert (m := .vault) (fun _ => rfl) s v
  apply of_vaults
  · intro id old hold
    obtain ⟨new, hnew, rfl⟩ := hkept id old hold
    exact ⟨old, hnew, .kept rfl fun h => h⟩
  · exact Db.table_insert_of_ne (m := .vault) (by decide) s v

/-- The change of one vault. -/
theorem of_modify {id : Id} {f : Vault → Vault} (hf : ∀ v, VaultMoves lab id s v (f v)) :
    VaultStep lab s (s.modify .vault id f) := by
  apply of_vaults
  · intro id' v hv
    rw [Db.find?_modify, hv]
    by_cases hid : id' = id
    · rw [if_pos hid, hid]
      exact ⟨f v, rfl, hf v⟩
    · rw [if_neg hid]
      exact ⟨v, rfl, .kept rfl fun h => h⟩
  · exact Db.table_modify_of_ne (m := .vault) (by decide) s id f

/-- Cash enters or leaves one holding. -/
theorem of_addCash {holder : CashHolder} {x : Cents}
    (hmoves : ∀ id, holder = (.vault, id) → lab.Enters id s ∨ lab.Transfers id s) :
    VaultStep lab s (s.addCash holder x) := by
  obtain ⟨type, id⟩ := holder
  cases type with
  | vault => exact of_modify fun v => .moved (hmoves id rfl) rfl
  | teller => exact of_agree (Db.Agree.modify (m := .teller) (by decide) _ _ _)

/-- What comes after a step leaves vaults and balancings alone. -/
theorem agree (h : VaultStep lab s t) (hsame : t.Agree [.vault, .cashBalancing] u) :
    VaultStep lab s u where
  vaults := by
    intro id v hv
    obtain ⟨v', hv', hmoves⟩ := h.vaults id v hv
    refine ⟨v', ?_, hmoves⟩
    rw [hsame.find? (by decide)]
    exact hv'
  balancings := h.balancings.trans (.of_table_eq (hsame _ (by decide)))
  recorded := by
    intro id c hnone hc
    rw [hsame.find? (by decide)] at hc
    obtain ⟨hlabel, hnext, hfirst, hvaults⟩ := h.recorded id c hnone hc
    exact ⟨hlabel, hnext, hfirst, (hsame _ (by decide)).trans hvaults⟩

end VaultStep

/-! ## What the calls do -/

theorem Db.find?_vault_addCash (s : Db) (holder : CashHolder) (x : Cents) (id : Id) :
    (s.addCash holder x).find? .vault id = (s.find? .vault id).map fun v =>
      { v with balance := v.balance + if holder = (.vault, id) then x else 0 } := by
  obtain ⟨type, holderId⟩ := holder
  cases type with
  | teller =>
    show (s.modify .teller holderId _).find? .vault id = _
    rw [find?_modify_of_ne (by decide)]
    simp
  | vault =>
    show (s.modify .vault holderId _).find? .vault id = _
    rw [find?_modify]
    by_cases hid : id = holderId
    · simp [hid]
    · have hne : (CashHolderType.vault, holderId) ≠ (.vault, id) := by
        intro h
        exact hid (Prod.mk.inj h).2.symm
      simp [hid, hne]

namespace VaultStep

/-- Cash moves from one holder to another. -/
theorem of_transfer {source destination : CashHolder} {x y : Cents}
    (hmoves : ∀ id, source = (.vault, id) ∨ destination = (.vault, id) → lab.Transfers id s)
    (hsame : s.Agree [.vault, .cashBalancing] t) :
    VaultStep lab s ((t.addCash source x).addCash destination y) := by
  apply of_vaults
  · intro id v hv
    rw [Db.find?_vault_addCash, Db.find?_vault_addCash, hsame.find? (by decide), hv, Option.map_some,
      Option.map_some]
    refine ⟨_, rfl, ?_⟩
    by_cases htouched : source = (.vault, id) ∨ destination = (.vault, id)
    · exact .moved (.inr (hmoves id htouched)) rfl
    · rw [not_or] at htouched
      simp only [if_neg htouched.1, if_neg htouched.2, add_zero]
      exact .kept rfl fun h => h
  · rw [Db.table_addCash (by decide) (by decide), Db.table_addCash (by decide) (by decide)]
    exact hsame _ (by decide)

/-- A variance is approved. -/
theorem of_reconciled {id : Id} {f : CashBalancing → CashBalancing}
    (hf : ∀ c : CashBalancing, c.Stays (f c))
    (hsame : s.Agree [.vault, .cashBalancing] t) :
    VaultStep lab s (t.modify .cashBalancing id f) where
  vaults := by
    apply vaults_of_eq
    rw [Db.table_modify_of_ne (by decide)]
    exact hsame _ (by decide)
  balancings := by
    have hkept : t.KeepsBalancings (t.modify .cashBalancing id f) :=
      Db.KeepsRows.modify (m := .cashBalancing) CashBalancing.Stays.refl t id hf
    exact Db.KeepsBalancings.trans (.of_table_eq (hsame _ (by decide))) hkept
  recorded := by
    intro id' c hnone hc
    rw [Db.find?_modify, hsame.find? (by decide), hnone, Option.map_none, ite_self] at hc
    exact absurd hc nofun

/-- A balancing is recorded. -/
theorem of_recorded {c : CashBalancing}
    (hlab : lab.balances = some (c.holderType, c.holderId, c.expectedAmount))
    (hfirst : ∀ id' c', s.find? .cashBalancing id' = some c' →
      ¬ c'.IsOf (c.holderType, c.holderId) c.balancingDate) :
    VaultStep lab s (s.insert .cashBalancing c) where
  vaults := vaults_of_eq (Db.table_insert_of_ne (by decide) _ _)
  balancings := Db.KeepsRows.insert (m := .cashBalancing) CashBalancing.Stays.refl s c
  recorded := by
    intro id c' hnone hc'
    rw [Db.find?_insert, hnone] at hc'
    split at hc'
    · next hid =>
      rw [← Option.some.inj hc']
      exact ⟨hlab, hid, hfirst, Db.table_insert_of_ne (by decide) _ _⟩
    · exact absurd hc' nofun

end VaultStep

/-- The update of a vault by a receipt or a withdrawal. -/
theorem run_moveVault_vaultStep {type : CashEntryType} {amount : ℚ} {v : Vault}
    (hamount : 0 < amount) (hlab : lab.movesCash = some (vaultId, type.signed amount))
    (h : (moveVault vaultId type amount).run s = (.ok v, t)) : VaultStep lab s t := by
  have hbalance : ∀ row, s.find? .vault vaultId = some row →
      s.holding? (.vault, vaultId) = some row.balance :=
    fun _ hrow => congrArg (Option.map Vault.balance) hrow
  cases type with
  | receipt =>
    obtain ⟨row, hrow, -, ht⟩ := run_update_eq_ok h
    have henters : lab.Enters vaultId s :=
      ⟨_, hlab, rfl, row.balance, hbalance row hrow, .inl hamount.le⟩
    rw [ht]
    exact .of_modify fun _ => .moved (.inl henters) rfl
  | withdrawal =>
    obtain ⟨guarded, s₁, hguarded, h₁⟩ := Proc.run_bind_eq_ok h
    obtain ⟨htrue, h₂⟩ := run_require_bind_eq_ok h₁
    subst htrue
    obtain ⟨row, hrow, hcovers, hs₁⟩ := run_updateGuarded_eq_true hguarded
    obtain ⟨-, ht⟩ := run_findUniqueOrThrow_eq_ok h₂
    have hleft : 0 ≤ toNumber row.balance + -amount := by
      have := of_decide_eq_true hcovers
      linarith
    have henters : lab.Enters vaultId s :=
      ⟨_, hlab, rfl, row.balance, hbalance row hrow, .inr hleft⟩
    rw [ht, hs₁]
    exact .of_modify fun _ => .moved (.inl henters) rfl

theorem run_cashEntryInTx_vaultStep {auth : Auth} {now : DateTime} {type : CashEntryType}
    {amount : ℚ} {notes : Option String} {description : String} {lines : List JournalLineInput}
    {entry : Id} (hamount : 0 < amount)
    (hlab : lab.movesCash = some (vaultId, type.signed amount))
    (h : (cashEntryInTx auth now vaultId type amount notes description lines).run s =
      (.ok entry, t)) : VaultStep lab s t := by
  obtain ⟨v, s₁, hmove, h₁⟩ := Proc.run_bind_eq_ok h
  have hstep := run_moveVault_vaultStep hamount hlab hmove
  have hrest : Quiet [.vault, .cashBalancing] (do
      let entry ← create .cashLedgerEntry
        { institutionId := auth.institutionId, holderType := .vault, holderId := vaultId,
          type := type.entryType, amount := ofNumber amount, balanceAfter := v.balance, notes,
          recordedById := auth.userId }
      let _ ← postJournal auth now description lines
      return entry) := by
    refine (Quiet.create (by decide) _).bind fun _ => ?_
    exact (Quiet.postJournal (by decide) (by decide) _ _ _ _).bind fun _ => .pure _
  have hsame := hrest.run s₁
  rw [h₁] at hsame
  exact hstep.agree hsame

theorem Disbursement.vaultStep {d : Disbursement} {loan : Loan}
    (h : d.inTx.run s = (.ok loan, t)) : VaultStep d.label s t := by
  obtain ⟨b, hb, hcovers, hcash⟩ := d.run_inTx_cash h
  have hleft : 0 ≤ toNumber b + -toNumber d.principal := by
    have := toNumber_le.mpr hcovers
    linarith
  have hmoved : VaultStep d.label s (s.addCash (.vault, d.vaultId) (-d.principal)) := by
    apply VaultStep.of_addCash
    intro id hid
    rw [← (Prod.mk.inj hid).2]
    exact .inl ⟨_, rfl, rfl, b, hb, .inr hleft⟩
  have hentry : (s.addCash (.vault, d.vaultId) (-d.principal)).Agree [.vault, .cashBalancing]
      ((s.addCash (.vault, d.vaultId) (-d.principal)).insert .cashLedgerEntry
        (d.entry (b - d.principal))) := .insert (by decide) _ _
  exact hmoved.agree (hentry.trans (hcash.mono (by decide)))

/-- The transaction of a decision. -/
theorem ResolveCall.run_inTx_vaultStep {call : ResolveCall} {existing : ApprovalRequest} {u : Unit}
    (hlab : lab.resolves =
      some ⟨call.requestId, existing, call.decision = .approve, call.now⟩)
    (h : (call.inTx existing).run s = (.ok u, t)) : VaultStep lab s t := by
  obtain ⟨row, w, hrow, hpending, heffect, ht⟩ := run_inTx_effect h
  have hclaimed : s.Agree (.cashBalancing :: cashTables)
      (s.modify .approvalRequest call.requestId call.resolve) :=
    .modify (m := .approvalRequest) (by decide) _ _ _
  have hlogged : w.Agree [.vault, .cashBalancing] t := by
    rw [ht]
    exact .insert (m := .auditLog) (by decide) _ _
  refine VaultStep.agree ?_ hlogged
  have hvaults : s.Agree [.vault, .cashBalancing]
      (s.modify .approvalRequest call.requestId call.resolve) := hclaimed.mono (by decide)
  have hquiet : Quiet [.vault, .cashBalancing] (call.effect existing) → VaultStep lab s w := by
    intro hquiet
    have hsame := hquiet.run (s.modify .approvalRequest call.requestId call.resolve)
    rw [heffect] at hsame
    exact .of_agree (hvaults.trans hsame)
  by_cases hdecision : call.decision = .reject
  · apply hquiet
    unfold effect
    rw [hdecision]
    exact Quiet.rejection (by decide) existing
  have happrove : call.decision = .approve := by
    cases hd : call.decision with
    | approve => rfl
    | reject => exact absurd hd hdecision
  cases htype : existing.type
  case cashTransfer =>
    unfold effect at heffect
    simp only [happrove, applyApproval, htype] at heffect
    obtain ⟨tr, b, htr, hb, hw | ⟨hcovers, b', out, into, -, -, hw⟩⟩ :=
      run_transferCash_eq_ok heffect
    · rw [hw]
      exact (VaultStep.of_agree hvaults).agree (Db.Agree.modify (m := .cashTransfer) (by decide) _ _ _)
    · rw [hclaimed.find? (by decide)] at htr
      rw [Db.holding?_congr (hclaimed.mono (by decide))] at hb
      have hrequest : s.requestStatus call.requestId = some .pending := by
        rw [Db.requestStatus, hrow, Option.map_some, hpending]
      have hmoves : ∀ id, tr.source = (.vault, id) ∨ tr.destination = (.vault, id) →
          lab.Transfers id s := fun id hid =>
        ⟨_, hlab, decide_eq_true happrove, hrequest, htype, tr, htr, hid, b, hb, hcovers⟩
      have hmoved := VaultStep.of_transfer (x := -tr.amount) (y := tr.amount) hmoves hvaults
      rw [hw]
      have hentries := Db.Agree.insertAll (m := .cashLedgerEntry)
        (show Model.cashLedgerEntry ∉ [Model.vault, .cashBalancing] by decide)
        (((s.modify .approvalRequest call.requestId call.resolve).addCash tr.source
          (-tr.amount)).addCash tr.destination tr.amount) [out, into]
      exact (hmoved.agree hentries).agree (Db.Agree.modify (m := .cashTransfer) (by decide) _ _ _)
  case cashBalancingVariance =>
    unfold effect at heffect
    simp only [happrove, applyApproval, htype] at heffect
    rw [run_update_end_eq_ok heffect]
    exact .of_reconciled (fun c => ⟨rfl, rfl, rfl, fun _ => rfl⟩) hvaults
  all_goals
    apply hquiet
    apply call.quiet_effect
    rw [htype]
    decide

end Steps

/-- A statement that closes a vault finds it reconciled for the day. -/
def Access.ClosesBalanced (lab : Access) (s t : Db) : Prop :=
  t.table .vault ≠ s.table .vault → ∀ x ∈ lab.closesVault, ∃ id c,
    s.find? .cashBalancing id = some c ∧ c.IsOf (.vault, x.1) (startOfDay x.2) ∧
      c.status = .reconciled

/-- What every statement of the calls does. -/
def GuardedVaultStep (lab : Access) (s t : Db) : Prop :=
  VaultStep lab s t ∧ lab.ClosesBalanced s t

def vaultProtocol : Protocol Access Db Unit where
  rely := Db.KeepsBalancings
  guar := fun lab s _ t _ => GuardedVaultStep lab s t
  refl := fun _ => .of_table_eq rfl
  trans := Db.KeepsBalancings.trans

section Follow

variable {s t : Db} {lab : Access} {α : Type}

theorem GuardedVaultStep.of_agree (h : s.Agree [.vault, .cashBalancing] t) :
    GuardedVaultStep lab s t :=
  ⟨.of_agree h, fun hne => absurd (h _ (by decide)) hne⟩

/-- A statement that closes no vault. -/
theorem VaultStep.guarded (h : VaultStep lab s t) (hlab : lab.closesVault = none) :
    GuardedVaultStep lab s t := by
  refine ⟨h, fun _ x hx => ?_⟩
  rw [hlab] at hx
  exact absurd hx nofun

theorem vaultProtocol_watches : vaultProtocol.Watches [.vault, .cashBalancing] := by
  intro lab s t d h
  have hstep : GuardedVaultStep lab s t := .of_agree h
  exact ⟨hstep.1.balancings, hstep⟩

/-- Keeping to the protocol, whatever comes out. -/
abbrev FollowsVaults (p : Handler α) (s : Db) : Prop :=
  p.Follows vaultProtocol (fun _ _ _ => True) s ()

theorem followsVaults_of_everyStep {p : Handler α} (h : p.EveryStep GuardedVaultStep) :
    FollowsVaults p s := by
  refine (Follows.of_everyStep ?_ h).imp fun _ _ _ _ => trivial
  intro lab t t' d hstep
  exact ⟨hstep.1.balancings, hstep⟩

theorem Quiet.followsVaults {p : Handler α} (hp : Quiet [.vault, .cashBalancing] p) :
    FollowsVaults p s :=
  vaultProtocol_watches.quiet_end hp fun _ _ _ => trivial

theorem createVault_follows (auth : Auth) (name : String) :
    FollowsVaults (createVault auth name) s := by
  have hW := vaultProtocol_watches
  refine Follows.require (fun _ => ?_) fun _ => trivial
  refine Follows.bind (followsVaults_of_everyStep ?_) (fun _ _ _ _ => ?_) fun _ _ _ _ => trivial
  · exact ⟨fun t => VaultStep.guarded (.of_insert _) rfl, fun _ => trivial⟩
  · exact ((Quiet.create (by decide) _).bind fun _ => Quiet.pure _).followsVaults

theorem openVault_follows (auth : Auth) (now : DateTime) (vaultId : Id) :
    FollowsVaults (openVault auth now vaultId) s := by
  have hW := vaultProtocol_watches
  refine hW.query fun t _ => Follows.orFail (fun vault _ => ?_) fun _ => trivial
  refine Follows.require (fun _ => ?_) fun _ => trivial
  refine hW.updateAs (fun t₁ row _ _ => ?_) fun _ => trivial
  have hstep : VaultStep {} t₁ (t₁.modify .vault vaultId fun v =>
      { v with status := .opened, openedById := some auth.userId, openedAt := some now }) :=
    .of_modify fun _ => .kept rfl nofun
  refine ⟨(), hstep.balancings, hstep.guarded rfl, ?_⟩
  exact ((Quiet.create (by decide) _).bind fun _ => Quiet.pure _).followsVaults

/-- The balancing that the close has found is still there when it writes. -/
theorem closeVault_follows (auth : Auth) (now : DateTime) (vaultId : Id) :
    FollowsVaults (closeVault auth now vaultId) s := by
  have hW := vaultProtocol_watches
  refine hW.query fun t _ => Follows.orFail (fun vault _ => ?_) fun _ => trivial
  refine Follows.require (fun _ => ?_) fun _ => trivial
  refine hW.query fun t₁ _ => Follows.orFail (fun found hfound => ?_) fun _ => trivial
  refine hW.updateAs (fun t₂ row ht₂ _ => ?_) fun _ => trivial
  have hmet := List.find?_some hfound
  rw [decide_eq_true_eq] at hmet
  obtain ⟨hof, hreconciled⟩ := hmet
  have hread : t₁.find? .cashBalancing found.1 = some found.2 :=
    OrderedMap.get?_eq_some.mpr (List.mem_of_find?_eq_some hfound)
  obtain ⟨c, hc, hstays⟩ := ht₂ _ _ hread
  have hstep : VaultStep { closesVault := some (vaultId, now) } t₂
      (t₂.modify .vault vaultId fun v =>
        { v with status := .closed, closedById := some auth.userId, closedAt := some now }) :=
    .of_modify fun _ => .closed now rfl rfl rfl
  refine ⟨(), hstep.balancings, ⟨hstep, fun _ x hx => ?_⟩, ?_⟩
  · rw [← Option.some.inj hx]
    exact ⟨found.1, c, hc, hstays.isOf hof, hstays.reconciled hreconciled⟩
  · exact ((Quiet.create (by decide) _).bind fun _ => Quiet.pure _).followsVaults

theorem createBalancing_everyStep (row : CashBalancing) :
    (createBalancing row).EveryStep GuardedVaultStep := by
  refine ⟨fun s => ?_, fun _ => trivial⟩
  dsimp only
  split
  · exact .of_agree (.refl s)
  · next hnew =>
    refine VaultStep.guarded (.of_recorded rfl fun id c hc hof => hnew ⟨c, ?_, hof⟩) rfl
    exact OrderedMap.mem_values.mpr ⟨id, hc⟩

theorem recordBalancing_follows (auth : Auth) (now : DateTime) (body : BalancingBody) :
    FollowsVaults (recordBalancing auth now body) s := by
  have hW := vaultProtocol_watches
  refine Follows.require (fun _ => ?_) fun _ => trivial
  refine hW.quiet (Quiet.getHolderBalance _ _) (fun t found _ => ?_) fun _ _ => trivial
  refine Follows.orFail (fun expectedAmount _ => ?_) fun _ => trivial
  refine hW.query fun t _ => Follows.require (fun _ => ?_) fun _ => trivial
  refine Follows.require (fun _ => ?_) fun _ => trivial
  refine Follows.bind (followsVaults_of_everyStep (createBalancing_everyStep _)) (fun _ _ _ _ => ?_)
    fun _ _ _ _ => trivial
  dsimp only
  split
  · apply Quiet.followsVaults
    refine (Quiet.create (by decide) _).bind fun _ => ?_
    exact (Quiet.create (by decide) _).bind fun _ => Quiet.pure _
  · exact ((Quiet.create (by decide) _).bind fun _ => Quiet.pure _).followsVaults

theorem recordCashEntry_followsVaults (auth : Auth) (now : DateTime) (vaultId : Id)
    (type : CashEntryType) (amount : ℚ) (notes : Option String) :
    FollowsVaults (recordCashEntry auth now vaultId type amount notes) s := by
  have hagree : ∀ lab s t, s.Agree [.vault, .cashBalancing] t → GuardedVaultStep lab s t :=
    fun _ _ _ => .of_agree
  apply followsVaults_of_everyStep
  apply recordCashEntry_everyStep (by decide) hagree
  intro hpos description lines s entry t hrun
  exact (run_cashEntryInTx_vaultStep hpos rfl hrun).guarded rfl

theorem disburseLoan_followsVaults (js : Js) (auth : Auth) (now : DateTime) (loanId : Id)
    (vaultId : Option Id) : FollowsVaults (disburseLoan js auth now loanId vaultId) s := by
  have hagree : ∀ lab s t, s.Agree [.vault, .cashBalancing] t → GuardedVaultStep lab s t :=
    fun _ _ _ => .of_agree
  apply followsVaults_of_everyStep
  apply disburseLoan_everyStep (by decide) (by decide) hagree
  exact fun d _ s loan t hrun => (d.vaultStep hrun).guarded rfl

theorem quiet_requestTransfer (auth : Auth) (body : TransferRequest) :
    Quiet [.vault, .cashBalancing] (requestTransfer auth body) := by
  refine (Quiet.require _ _).bind fun _ => (Quiet.require _ _).bind fun _ => ?_
  refine (Quiet.getHolderBalance _ _).bind fun _ => (Quiet.orFail _ _).bind fun _ => ?_
  refine (Quiet.require _ _).bind fun _ => (Quiet.getHolderBalance _ _).bind fun _ => ?_
  refine (Quiet.orFail _ _).bind fun _ => (Quiet.create (by decide) _).bind fun _ => ?_
  refine (Quiet.create (by decide) _).bind fun _ => ?_
  exact (Quiet.create (by decide) _).bind fun _ => Quiet.pure _

theorem ResolveCall.followsVaults (call : ResolveCall) : FollowsVaults call.handler s := by
  apply followsVaults_of_everyStep
  apply call.everyStep
  · exact fun _ s => .of_agree (.refl s)
  · exact fun existing s t hrun => (run_inTx_vaultStep rfl hrun).guarded rfl

/-- A call that may touch a vault.  The last constructor stands for every other endpoint. -/
inductive VaultCall
  | create (auth : Auth) (name : String)
  | opens (auth : Auth) (now : DateTime) (vaultId : Id)
  | close (auth : Auth) (now : DateTime) (vaultId : Id)
  | balance (auth : Auth) (now : DateTime) (body : BalancingBody)
  | enter (auth : Auth) (now : DateTime) (vaultId : Id) (type : CashEntryType) (amount : ℚ)
      (notes : Option String)
  | disburse (js : Js) (auth : Auth) (now : DateTime) (loanId : Id) (vaultId : Option Id)
  | requestTransfer (auth : Auth) (body : TransferRequest)
  | resolve (call : ResolveCall)
  | other (p : Handler Unit) (h : Quiet [.vault, .cashBalancing] p)

def VaultCall.handler : VaultCall → Handler Unit
  | create auth name => do let _ ← createVault auth name
  | opens auth now vaultId => do let _ ← openVault auth now vaultId
  | close auth now vaultId => do let _ ← closeVault auth now vaultId
  | balance auth now body => do let _ ← recordBalancing auth now body
  | enter auth now vaultId type amount notes => do
    let _ ← recordCashEntry auth now vaultId type amount notes
  | disburse js auth now loanId vaultId => do let _ ← disburseLoan js auth now loanId vaultId
  | requestTransfer auth body => do let _ ← NexusEfos.requestTransfer auth body
  | resolve call => call.handler
  | other p _ => p

theorem FollowsVaults.discard {p : Handler α} (h : FollowsVaults p s) :
    FollowsVaults (do let _ ← p) s :=
  h.bind (fun _ _ _ _ => trivial) fun _ _ _ _ => trivial

theorem VaultCall.follows (call : VaultCall) : FollowsVaults call.handler s := by
  cases call with
  | create auth name => exact (createVault_follows auth name).discard
  | opens auth now vaultId => exact (openVault_follows auth now vaultId).discard
  | close auth now vaultId => exact (closeVault_follows auth now vaultId).discard
  | balance auth now body => exact (recordBalancing_follows auth now body).discard
  | enter auth now vaultId type amount notes =>
    exact (recordCashEntry_followsVaults auth now vaultId type amount notes).discard
  | disburse js auth now loanId vaultId =>
    exact (disburseLoan_followsVaults js auth now loanId vaultId).discard
  | requestTransfer auth body => exact ((quiet_requestTransfer auth body).bind fun _ => .pure _).followsVaults
  | resolve call => exact call.followsVaults
  | other p h => exact h.followsVaults

end Follow

/-! ## What the balancings and the vault have in common -/

section Books

variable {s t : Db} {lab : Access} {vaultId : Id} {h : List VaultEvent} {date : DateTime}

/-- A balancing expects what the vault holds as long as its cash has not moved. -/
def Db.BalancedSince (s : Db) (vaultId : Id) (h : List VaultEvent) : Prop :=
  ∀ id c, s.find? .cashBalancing id = some c → (c.holderType, c.holderId) = (.vault, vaultId) →
    ¬ MovedSince c.balancingDate h → s.holding? (.vault, vaultId) = some c.expectedAmount

theorem movedSince_append_moved (date : DateTime) (h : List VaultEvent) :
    MovedSince date (h ++ [.moved]) := by
  simp [MovedSince]

/-- A balancing of another day does not count. -/
theorem movedSince_append_balanced {date' : DateTime} (hne : date' ≠ date) (h : List VaultEvent) :
    MovedSince date (h ++ [.balanced date']) ↔ MovedSince date h := by
  simp [MovedSince, hne]

/-- A balancing that was recorded before is of another day, or of another holder. -/
theorem movedSince_append_balancingEvents {id : Id} {c : CashBalancing} (hstep : VaultStep lab s t)
    (hc : s.find? .cashBalancing id = some c) (hholder : (c.holderType, c.holderId) = (.vault, vaultId)) :
    MovedSince c.balancingDate (h ++ balancingEvents vaultId s t) ↔
      MovedSince c.balancingDate h := by
  unfold balancingEvents
  split
  · next c' hc' =>
    have hnew : s.find? .cashBalancing (s.nextId .cashBalancing) = none := OrderedMap.get?_nextKey _
    have hfirst := (hstep.recorded _ c' hnew hc').first id c hc
    split
    · next hsame =>
      apply movedSince_append_balanced
      intro hdate
      exact hfirst ⟨hholder.trans hsame.symm, hdate.symm⟩
    · rw [List.append_nil]
  · rw [List.append_nil]

/-- A statement that meets the condition keeps the cash of a closed vault. -/
theorem VaultStep.frozen (hstep : VaultStep lab s t) (hlab : lab.KeepsVault vaultId h s)
    (hclosed : s.vaultStatus vaultId = some .closed) :
    t.holding? (.vault, vaultId) = s.holding? (.vault, vaultId) := by
  obtain ⟨v, hv, -⟩ := Option.map_eq_some_iff.mp hclosed
  obtain ⟨v', hv', hmoves⟩ := hstep.vaults vaultId v hv
  have hsame : v'.balance = v.balance → t.holding? (.vault, vaultId) = s.holding? (.vault, vaultId) := by
    intro hbalance
    show (t.find? .vault vaultId).map Vault.balance = (s.find? .vault vaultId).map Vault.balance
    rw [hv, hv', Option.map_some, Option.map_some, hbalance]
  cases hmoves with
  | kept hbalance _ => exact hsame hbalance
  | moved hmoves _ =>
    have hopen := hlab.moves hmoves
    rw [hclosed] at hopen
    exact absurd hopen (by decide)
  | closed _ _ hbalance _ => exact hsame hbalance

theorem Db.BalancedSince.step (hbooks : s.BalancedSince vaultId h) (hstep : VaultStep lab s t)
    (hlab : lab.KeepsVault vaultId h s) :
    t.BalancedSince vaultId (h ++ vaultEvents vaultId lab s t) := by
  intro id c hc hholder hstill
  cases hbefore : s.find? .cashBalancing id with
  | none =>
    -- A new balancing stores what the vault holds.
    have hnew := hstep.recorded id c hbefore hc
    have hheld : t.holding? (.vault, vaultId) = s.holding? (.vault, vaultId) := by
      show (t.find? .vault vaultId).map Vault.balance = (s.find? .vault vaultId).map Vault.balance
      rw [Db.find?, hnew.vaults, Db.find?]
    rw [hheld]
    exact hlab.balances _ hnew.label hholder
  | some c₀ =>
    obtain ⟨c', hc', hstays⟩ := hstep.balancings id c₀ hbefore
    rw [hc] at hc'
    rw [← Option.some.inj hc'] at hstays
    have hholder₀ := hstays.holder.symm.trans hholder
    unfold vaultEvents at hstill
    by_cases hheld : t.holding? (.vault, vaultId) = s.holding? (.vault, vaultId)
    · rw [if_pos hheld, List.append_nil, hstays.date,
        movedSince_append_balancingEvents hstep hbefore hholder₀] at hstill
      rw [hheld, hstays.expected]
      exact hbooks id c₀ hbefore hholder₀ hstill
    · rw [if_neg hheld, ← List.append_assoc] at hstill
      exact absurd (movedSince_append_moved _ _) hstill

/-- A statement that closes the vault leaves it as its balancing of the day says. -/
theorem GuardedVaultStep.closedReconciled (hguar : GuardedVaultStep lab s t)
    (hlab : lab.KeepsVault vaultId h s) (hbooks : s.BalancedSince vaultId h)
    (hopen : s.vaultStatus vaultId = some .opened) (hclosed : t.vaultStatus vaultId = some .closed) :
    t.ClosedReconciled vaultId := by
  obtain ⟨hstep, hcloses⟩ := hguar
  obtain ⟨v, hv, hstatus⟩ := Option.map_eq_some_iff.mp hopen
  obtain ⟨v', hv', hmoves⟩ := hstep.vaults vaultId v hv
  have hstatus' : v'.status = .closed := by
    rw [Db.vaultStatus, hv', Option.map_some] at hclosed
    exact Option.some.inj hclosed
  cases hmoves with
  | kept _ hkept =>
    rw [hkept hstatus'] at hstatus
    exact absurd hstatus nofun
  | moved _ hsame =>
    rw [hsame, hstatus] at hstatus'
    exact absurd hstatus' nofun
  | closed now hlabel hbalance hclosedAt =>
    have hchanged : t.table .vault ≠ s.table .vault := by
      intro hsame
      rw [Db.vaultStatus, Db.find?, hsame] at hclosed
      exact absurd (hopen.symm.trans hclosed) (by decide)
    obtain ⟨id, c, hc, hof, hreconciled⟩ := hcloses hchanged _ hlabel
    have hstill := hlab.closes _ hlabel rfl
    rw [← hof.2] at hstill
    have hexpected := hbooks id c hc hof.1 hstill
    have hheld : s.holding? (.vault, vaultId) = some v.balance :=
      congrArg (Option.map Vault.balance) hv
    obtain ⟨c', hc', hstays⟩ := hstep.balancings id c hc
    refine ⟨v', hv', now, hclosedAt, c', OrderedMap.mem_values.mpr ⟨id, hc'⟩, hstays.isOf hof,
      hstays.reconciled hreconciled, ?_⟩
    rw [hstays.expected, hbalance]
    exact Option.some.inj (hexpected.symm.trans hheld)

end Books

/-! ## Runs of the calls -/

section Runs

variable {ι : Type} [DecidableEq ι]

def vaultPool (calls : ι → VaultCall) (s : Db) : Pool ι Access Db Failure Unit :=
  ⟨fun i => (calls i).handler, s⟩

/-- In a run in which the cash of the vault moves only while it is open, its balancings store what
it holds, and its cash does not move between the balancing of the day and the close, every close
leaves a RECONCILED balancing of that day that expects what the vault holds, and while the vault
is CLOSED it holds the same. -/
theorem vault_closes_reconciled (calls : ι → VaultCall) (s : Db) (vaultId : Id)
    (hnone : ∀ c ∈ (s.table .cashBalancing).values, (c.holderType, c.holderId) ≠ (.vault, vaultId))
    (sched : List ι) (hkeeps : (vaultPool calls s).AllowedAfter (vaultEvents vaultId)
      (Access.KeepsVault vaultId) [] sched) :
    ∀ before i after, sched = before ++ i :: after →
      (((vaultPool calls s).run before).state.vaultStatus vaultId = some .opened →
        ((vaultPool calls s).run (before ++ [i])).state.vaultStatus vaultId = some .closed →
          ((vaultPool calls s).run (before ++ [i])).state.ClosedReconciled vaultId) ∧
      (((vaultPool calls s).run before).state.vaultStatus vaultId = some .closed →
        ((vaultPool calls s).run (before ++ [i])).state.holding? (.vault, vaultId) =
          ((vaultPool calls s).run before).state.holding? (.vault, vaultId)) := by
  intro before i after hsched
  have hfollows : (vaultPool calls s).Follows vaultProtocol (fun _ _ => True) fun _ => () :=
    fun i => (calls i).follows
  have hstart : s.BalancedSince vaultId [] := by
    intro id c hc hholder _
    exact absurd hholder (hnone c (OrderedMap.mem_values.mpr ⟨id, hc⟩))
  rw [hsched, ← List.singleton_append, ← List.append_assoc] at hkeeps
  have hprefix := (Pool.allowedAfter_append.mp hkeeps).1
  have hlast := Pool.Follows.last_step_history (K := fun _ _ => True)
    (J := fun s h => s.BalancedSince vaultId h) (fun _ _ _ _ => trivial)
    (fun lab t _ u _ past hguar _ hlab hbooks _ => ⟨hbooks.step hguar.1 hlab, trivial⟩) hfollows
    hstart (fun _ => trivial) hprefix
  rcases hlast with hsame | ⟨lab, d, d', hguar, hlab, hbooks⟩
  · rw [hsame]
    refine ⟨fun hopen hclosed => ?_, fun _ => rfl⟩
    rw [hopen] at hclosed
    exact absurd hclosed (by decide)
  · constructor
    · exact fun hopen hclosed => hguar.closedReconciled hlab hbooks hopen hclosed
    · exact fun hclosed => hguar.1.frozen hlab hclosed

end Runs

/-! ## A day of a vault -/

/-- A receipt, the balancing and the close of the main vault. -/
def vaultCalls : Fin 3 → VaultCall
  | 0 => .enter ⟨1, 2⟩ 1 1 .receipt 100 none
  | 1 => .balance ⟨1, 2⟩ 2 ⟨.vault, 1, 2, 100, none⟩
  | 2 => .close ⟨1, 2⟩ 3 1

/-- The vault is balanced after the receipt. -/
theorem vault_closes_reconciled_vaultCalls :
    ((vaultPool vaultCalls cashLedger).run
        (List.replicate 7 0 ++ List.replicate 4 1 ++ [2, 2, 2])).state.ClosedReconciled 1 := by
  have hrun := vault_closes_reconciled vaultCalls cashLedger 1 (by decide)
    (List.replicate 7 0 ++ List.replicate 4 1 ++ [2, 2, 2]) (by decide +kernel)
    (List.replicate 7 0 ++ List.replicate 4 1 ++ [2, 2]) 2 [] rfl
  exact hrun.1 (by decide +kernel) (by decide +kernel)

/-- The same, and nothing has been counted when the receipt comes. -/
def lateReceipt : Fin 3 → VaultCall
  | 0 => .balance ⟨1, 2⟩ 1 ⟨.vault, 1, 1, 0, none⟩
  | 1 => .enter ⟨1, 2⟩ 2 1 .receipt 100 none
  | 2 => .close ⟨1, 2⟩ 3 1

/-- The vault is closed with cash that its balancing of the day does not expect. -/
theorem vault_closes_unreconciled :
    ¬ ∀ (calls : Fin 3 → VaultCall) (s : Db) (vaultId : Id),
      (∀ c ∈ (s.table .cashBalancing).values, (c.holderType, c.holderId) ≠ (.vault, vaultId)) →
      ∀ sched before i after, sched = before ++ i :: after →
        (((vaultPool calls s).run before).state.vaultStatus vaultId = some .opened →
          ((vaultPool calls s).run (before ++ [i])).state.vaultStatus vaultId = some .closed →
            ((vaultPool calls s).run (before ++ [i])).state.ClosedReconciled vaultId) ∧
        (((vaultPool calls s).run before).state.vaultStatus vaultId = some .closed →
          ((vaultPool calls s).run (before ++ [i])).state.holding? (.vault, vaultId) =
            ((vaultPool calls s).run before).state.holding? (.vault, vaultId)) := by
  intro h
  have hrun := h lateReceipt cashLedger 1 (by decide) _
    (List.replicate 4 0 ++ List.replicate 7 1 ++ [2, 2]) 2 [] rfl
  have hclosed := hrun.1 (by decide +kernel) (by decide +kernel)
  revert hclosed
  decide +kernel

end NexusEfos
