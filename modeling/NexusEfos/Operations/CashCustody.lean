/-
The custody of cash: vaults, tellers and their ledger.

Receipts, withdrawals, disbursements and approved transfers each move cash in one
transaction that also writes the entries of the ledger.  So every holding is the signed
sum of its entries and never negative, the balance an entry records is the holding right
after its transaction, and a transfer moves cash without making or losing any
(`cash_in_custody`).  An entry of a transfer from a holder to itself would record a
balance that the holder never has; the endpoint refuses such a request.
-/
import NexusEfos.Approvals.ExactlyOnce
import NexusEfos.Loans.Disbursements
import NexusEfos.Operations.Cash

namespace NexusEfos

/-! ## Holdings and entries -/

/-- A vault or a teller. -/
abbrev CashHolder := CashHolderType × Id

def CashLedgerEntry.holder (e : CashLedgerEntry) : CashHolder := (e.holderType, e.holderId)

/-- The amount of an entry with the sign it has on the holding. -/
def CashLedgerEntry.signed (e : CashLedgerEntry) : Cents :=
  match e.type with
  | .receipt | .returned | .transferIn => e.amount
  | .withdrawal | .allocation | .transferOut => -e.amount

def CashTransfer.source (t : CashTransfer) : CashHolder := (t.fromType, t.fromId)

def CashTransfer.destination (t : CashTransfer) : CashHolder := (t.toType, t.toId)

namespace Db

/-- What a holder holds, if there is one. -/
def holding? (s : Db) (h : CashHolder) : Option Cents :=
  match h.1 with
  | .vault => (s.find? .vault h.2).map Vault.balance
  | .teller => (s.find? .teller h.2).map Teller.currentHolding

def holding (s : Db) (h : CashHolder) : Cents := (s.holding? h).getD 0

/-- The cash of all vaults and tellers. -/
def totalCash (s : Db) : Cents :=
  ((s.table .vault).total fun _ v => v.balance) + (s.table .teller).total fun _ t => t.currentHolding

/-- The entries of the ledger, oldest first. -/
def cashEntries (s : Db) : List CashLedgerEntry := (s.table .cashLedgerEntry).values

/-- The signed sum of the entries of a holder. -/
def entrySum (s : Db) (h : CashHolder) : Cents :=
  (s.cashEntries.map fun e => if e.holder = h then e.signed else 0).sum

/-- Change a holding. -/
def addCash (s : Db) (h : CashHolder) (x : Cents) : Db :=
  match h.1 with
  | .vault => s.modify .vault h.2 fun v => { v with balance := v.balance + x }
  | .teller => s.modify .teller h.2 fun t => { t with currentHolding := t.currentHolding + x }

theorem table_addCash {m : Model} (hv : m ≠ .vault) (ht : m ≠ .teller) (s : Db) (h : CashHolder)
    (x : Cents) : (s.addCash h x).table m = s.table m := by
  obtain ⟨type, id⟩ := h
  cases type with
  | vault => exact table_modify_of_ne hv ..
  | teller => exact table_modify_of_ne ht ..

theorem holding?_addCash (s : Db) (h : CashHolder) (x : Cents) (h' : CashHolder) :
    (s.addCash h x).holding? h' = if h' = h then (s.holding? h).map (· + x) else s.holding? h' := by
  obtain ⟨type, id⟩ := h
  obtain ⟨type', id'⟩ := h'
  cases type with
  | vault =>
    cases type' with
    | vault =>
      show ((s.modify .vault id _).find? .vault id').map Vault.balance = _
      rw [find?_modify]
      by_cases hid : id' = id
      · subst hid
        simp [holding?, Function.comp_def]
      · simp [holding?, hid]
    | teller =>
      show ((s.modify .vault id _).find? .teller id').map Teller.currentHolding = _
      rw [find?_modify_of_ne (by decide), if_neg (by simp)]
      rfl
  | teller =>
    cases type' with
    | vault =>
      show ((s.modify .teller id _).find? .vault id').map Vault.balance = _
      rw [find?_modify_of_ne (by decide), if_neg (by simp)]
      rfl
    | teller =>
      show ((s.modify .teller id _).find? .teller id').map Teller.currentHolding = _
      rw [find?_modify]
      by_cases hid : id' = id
      · subst hid
        simp [holding?, Function.comp_def]
      · simp [holding?, hid]

theorem holding_addCash {s : Db} {h : CashHolder} {b : Cents} (hb : s.holding? h = some b)
    (x : Cents) (h' : CashHolder) :
    (s.addCash h x).holding h' = if h' = h then b + x else s.holding h' := by
  rw [holding, holding?_addCash]
  by_cases hh : h' = h
  · rw [if_pos hh, if_pos hh, hb]
    rfl
  · rw [if_neg hh, if_neg hh]
    rfl

theorem holding_eq {s : Db} {h : CashHolder} {b : Cents} (hb : s.holding? h = some b) :
    s.holding h = b := by
  rw [holding, hb]
  rfl

theorem totalCash_addCash {s : Db} {h : CashHolder} {b : Cents} (hb : s.holding? h = some b)
    (x : Cents) : (s.addCash h x).totalCash = s.totalCash + x := by
  obtain ⟨type, id⟩ := h
  cases type with
  | vault =>
    obtain ⟨v, hv, -⟩ := Option.map_eq_some_iff.mp hb
    rw [totalCash, addCash, table_modify_self, table_modify_of_ne (by decide),
      OrderedMap.total_modify_of_some hv, totalCash]
    ring
  | teller =>
    obtain ⟨t, ht, -⟩ := Option.map_eq_some_iff.mp hb
    rw [totalCash, addCash, table_modify_self, table_modify_of_ne (by decide),
      OrderedMap.total_modify_of_some ht, totalCash]
    ring

end Db

/-! ## One statement -/

/-- The tables of cash. -/
def cashTables : List Model := [.vault, .teller, .cashLedgerEntry, .cashTransfer]

/-- A transfer between two holders. -/
structure CashTransfer.Sound (t : CashTransfer) : Prop where
  apart : t.source ≠ t.destination
  nonneg : 0 ≤ t.amount

/-- The two entries of a transfer. -/
structure CashTransfer.Entries (t : CashTransfer) (s : Db) (out into : CashLedgerEntry) : Prop where
  out_holder : out.holder = t.source
  out_signed : out.signed = -t.amount
  out_after : out.balanceAfter = s.holding t.source - t.amount
  into_holder : into.holder = t.destination
  into_signed : into.signed = t.amount
  into_after : into.balanceAfter = (s.addCash t.source (-t.amount)).holding t.destination + t.amount

/-- A transfer once its cash has moved. -/
def CashTransfer.complete (approvedById : Id) (now : DateTime) (t : CashTransfer) : CashTransfer :=
  { t with status := .completed, approvedById := some approvedById, completedAt := some now }

/-- What a statement can do to the cash. -/
inductive CashStep (s : Db) : Db → Prop
  | kept {s' : Db} (h : s.Agree cashTables s') : CashStep s s'
  | requested {s' : Db} {row : CashTransfer} (hrow : row.Sound)
      (h : (s.insert .cashTransfer row).Agree cashTables s') : CashStep s s'
  | entered {s' : Db} {holder : CashHolder} {b x : Cents} {e : CashLedgerEntry}
      (hb : s.holding? holder = some b) (hx : 0 ≤ x ∨ 0 ≤ b + x) (hholder : e.holder = holder)
      (hsigned : e.signed = x) (hafter : e.balanceAfter = b + x)
      (h : ((s.addCash holder x).insert .cashLedgerEntry e).Agree cashTables s') : CashStep s s'
  | refused {s' : Db} {id : Id}
      (h : (s.modify .cashTransfer id fun t => { t with status := .rejected }).Agree cashTables s') :
      CashStep s s'
  | transferred {s' : Db} {id : Id} {t : CashTransfer} {b b' : Cents} {out into : CashLedgerEntry}
      {approvedById : Id} {now : DateTime} (ht : s.find? .cashTransfer id = some t)
      (hb : s.holding? t.source = some b) (hcovers : t.amount ≤ b)
      (hb' : (s.addCash t.source (-t.amount)).holding? t.destination = some b')
      (hentries : t.Entries s out into)
      (h : ((((s.addCash t.source (-t.amount)).addCash t.destination t.amount).insertAll
        .cashLedgerEntry [out, into]).modify .cashTransfer id
          (.complete approvedById now)).Agree cashTables s') : CashStep s s'

/-- Every holding is the signed sum of its entries, and not negative, and every transfer is
between two holders. -/
structure CashSound (s : Db) : Prop where
  nonneg : ∀ h, 0 ≤ s.holding h
  ledger : ∀ h, s.holding h = s.entrySum h
  transfers : ∀ id t, s.find? .cashTransfer id = some t → t.Sound

/-- What a statement has done: its entries record the holdings as they are after it, and a
transfer it has completed has left the sum of the cash as it was. -/
structure CashMoves (s s' : Db) : Prop where
  entries : ∃ new, s'.cashEntries = s.cashEntries ++ new ∧
    ∀ e ∈ new, e.balanceAfter = s'.holding e.holder
  completed : ∀ id t t', s.find? .cashTransfer id = some t → t.status ≠ .completed →
    s'.find? .cashTransfer id = some t' → t'.status = .completed → s'.totalCash = s.totalCash

namespace Db

variable {s t : Db}

theorem holding?_congr (h : s.Agree [.vault, .teller] t) (holder : CashHolder) :
    t.holding? holder = s.holding? holder := by
  obtain ⟨type, id⟩ := holder
  cases type with
  | vault =>
    show (t.find? .vault id).map Vault.balance = (s.find? .vault id).map Vault.balance
    rw [h.find? (by decide)]
  | teller =>
    show (t.find? .teller id).map Teller.currentHolding =
      (s.find? .teller id).map Teller.currentHolding
    rw [h.find? (by decide)]

theorem holding_congr (h : s.Agree [.vault, .teller] t) (holder : CashHolder) :
    t.holding holder = s.holding holder := by
  rw [holding, holding?_congr h, holding]

theorem totalCash_congr (h : s.Agree [.vault, .teller] t) : t.totalCash = s.totalCash := by
  rw [totalCash, h .vault (by decide), h .teller (by decide), totalCash]

/-- The same change of a holding keeps the agreement. -/
theorem Agree.addCash_congr {watched : List Model} (h : s.Agree watched t) (holder : CashHolder)
    (x : Cents) : (s.addCash holder x).Agree watched (t.addCash holder x) := by
  obtain ⟨type, id⟩ := holder
  cases type with
  | vault => exact h.modify_congr id _
  | teller => exact h.modify_congr id _

theorem cashEntries_congr (h : t.table .cashLedgerEntry = s.table .cashLedgerEntry) :
    t.cashEntries = s.cashEntries := congrArg OrderedMap.values h

/-- Entries that are added count for their holders. -/
theorem entrySum_of_entries {new : List CashLedgerEntry} (h : t.cashEntries = s.cashEntries ++ new)
    (holder : CashHolder) : t.entrySum holder = s.entrySum holder +
      (new.map fun e => if e.holder = holder then e.signed else 0).sum := by
  rw [entrySum, h, List.map_append, List.sum_append, entrySum]

end Db

section Steps

variable {s t u : Db}

/-- The cash is where it was, and so are its entries. -/
theorem CashSound.of_still (hs : CashSound s)
    (h : s.Agree [.vault, .teller, .cashLedgerEntry] t)
    (htransfers : ∀ id tr, t.find? .cashTransfer id = some tr → tr.Sound) : CashSound t where
  nonneg := fun holder => by
    rw [Db.holding_congr (h.mono (by decide))]
    exact hs.nonneg holder
  ledger := fun holder => by
    rw [Db.holding_congr (h.mono (by decide)), Db.entrySum,
      Db.cashEntries_congr (h .cashLedgerEntry (by decide))]
    exact hs.ledger holder
  transfers := htransfers

theorem CashSound.congr (hs : CashSound s) (h : s.Agree cashTables t) : CashSound t := by
  refine hs.of_still (h.mono (by decide)) fun id tr htr => ?_
  rw [h.find? (by decide)] at htr
  exact hs.transfers id tr htr

theorem CashMoves.of_still (h : s.Agree [.vault, .teller, .cashLedgerEntry] t) :
    CashMoves s t where
  entries := ⟨[], by rw [Db.cashEntries_congr (h .cashLedgerEntry (by decide)), List.append_nil],
    nofun⟩
  completed := fun _ _ _ _ _ _ _ => Db.totalCash_congr (h.mono (by decide))

theorem CashMoves.congr (hs : CashMoves s t) (h : t.Agree cashTables u) : CashMoves s u := by
  obtain ⟨new, hnew, hafter⟩ := hs.entries
  constructor
  · refine ⟨new, (Db.cashEntries_congr (h .cashLedgerEntry (by decide))).trans hnew, fun e he => ?_⟩
    rw [Db.holding_congr (h.mono (by decide))]
    exact hafter e he
  · intro id tr tr' htr hopen htr' hdone
    rw [h.find? (by decide)] at htr'
    rw [Db.totalCash_congr (h.mono (by decide))]
    exact hs.completed id tr tr' htr hopen htr' hdone

/-- A transfer is requested. -/
theorem cash_requested (hs : CashSound s) {row : CashTransfer} (hrow : row.Sound) :
    CashSound (s.insert .cashTransfer row) ∧ CashMoves s (s.insert .cashTransfer row) := by
  have hstill : s.Agree [.vault, .teller, .cashLedgerEntry] (s.insert .cashTransfer row) :=
    Db.Agree.insert (m := .cashTransfer) (by decide) _ _
  refine ⟨hs.of_still hstill fun id tr htr => ?_, .of_still hstill⟩
  rw [Db.find?_insert] at htr
  by_cases hid : id = s.nextId .cashTransfer
  · rw [if_pos hid] at htr
    rwa [← Option.some.inj htr]
  · rw [if_neg hid] at htr
    exact hs.transfers id tr htr

/-- A transfer is rewritten and stays between the same holders. -/
theorem CashSound.transfers_modify (hs : CashSound s) {f : CashTransfer → CashTransfer}
    (hf : ∀ tr : CashTransfer, tr.Sound → (f tr).Sound) (id : Id) :
    ∀ id' tr, (s.modify .cashTransfer id f).find? .cashTransfer id' = some tr → tr.Sound := by
  intro id' tr htr
  rw [Db.find?_modify] at htr
  by_cases hid : id' = id
  · rw [if_pos hid] at htr
    obtain ⟨tr', htr', rfl⟩ := Option.map_eq_some_iff.mp htr
    exact hf tr' (hs.transfers id' tr' htr')
  · rw [if_neg hid] at htr
    exact hs.transfers id' tr htr

/-- A transfer is refused. -/
theorem cash_refused (hs : CashSound s) (id : Id) :
    CashSound (s.modify .cashTransfer id fun tr => { tr with status := .rejected }) ∧
      CashMoves s (s.modify .cashTransfer id fun tr => { tr with status := .rejected }) := by
  have hstill : s.Agree [.vault, .teller, .cashLedgerEntry]
      (s.modify .cashTransfer id fun tr => { tr with status := .rejected }) :=
    Db.Agree.modify (m := .cashTransfer) (by decide) _ _ _
  refine ⟨hs.of_still hstill (hs.transfers_modify (fun tr htr => ?_) id), .of_still hstill⟩
  exact ⟨htr.apart, htr.nonneg⟩

/-- Cash enters or leaves one holding. -/
theorem cash_entered (hs : CashSound s) {holder : CashHolder} {b x : Cents} {e : CashLedgerEntry}
    (hb : s.holding? holder = some b) (hx : 0 ≤ x ∨ 0 ≤ b + x) (hholder : e.holder = holder)
    (hsigned : e.signed = x) (hafter : e.balanceAfter = b + x) :
    CashSound ((s.addCash holder x).insert .cashLedgerEntry e) ∧
      CashMoves s ((s.addCash holder x).insert .cashLedgerEntry e) := by
  have hheld : ∀ h, ((s.addCash holder x).insert .cashLedgerEntry e).holding h =
      if h = holder then b + x else s.holding h := by
    intro h
    have hsame : (s.addCash holder x).Agree [.vault, .teller]
        ((s.addCash holder x).insert .cashLedgerEntry e) :=
      Db.Agree.insert (m := .cashLedgerEntry) (by decide) _ _
    rw [Db.holding_congr hsame, Db.holding_addCash hb]
  have hentries : ((s.addCash holder x).insert .cashLedgerEntry e).cashEntries =
      s.cashEntries ++ [e] := by
    rw [Db.cashEntries, Db.table_insert_self, OrderedMap.values_create,
      Db.table_addCash (by decide) (by decide), Db.cashEntries]
  have htransfers : ((s.addCash holder x).insert .cashLedgerEntry e).table .cashTransfer =
      s.table .cashTransfer := by
    rw [Db.table_insert_of_ne (by decide), Db.table_addCash (by decide) (by decide)]
  have hold : s.holding holder = b := Db.holding_eq hb
  refine ⟨⟨fun h => ?_, fun h => ?_, fun id tr htr => ?_⟩, ⟨[e], hentries, fun e' he' => ?_⟩,
    fun id tr tr' htr hopen htr' hdone => ?_⟩
  · rw [hheld]
    by_cases hh : h = holder
    · rw [if_pos hh]
      have hnonneg := hs.nonneg holder
      rw [hold] at hnonneg
      rcases hx with hx | hx
      · exact add_nonneg hnonneg hx
      · exact hx
    · rw [if_neg hh]
      exact hs.nonneg h
  · rw [hheld, Db.entrySum_of_entries hentries, ← hs.ledger, List.map_singleton, List.sum_singleton,
      hholder, hsigned]
    by_cases hh : h = holder
    · rw [if_pos hh, if_pos hh.symm, hh, hold]
    · rw [if_neg hh, if_neg (Ne.symm hh), add_zero]
  · rw [Db.find?, htransfers] at htr
    exact hs.transfers id tr htr
  · rw [List.mem_singleton.mp he', hheld, hholder, if_pos rfl, hafter]
  · rw [Db.find?, htransfers] at htr'
    have hsame : tr = tr' := Option.some.inj (htr.symm.trans htr')
    rw [hsame] at hopen
    exact absurd hdone hopen

/-- Cash moves from one holder to another. -/
theorem cash_transferred (hs : CashSound s) {id : Id} {tr : CashTransfer} {b b' : Cents}
    {out into : CashLedgerEntry} (htr : s.find? .cashTransfer id = some tr)
    (hb : s.holding? tr.source = some b) (hcovers : tr.amount ≤ b)
    (hb' : (s.addCash tr.source (-tr.amount)).holding? tr.destination = some b')
    (hentries : tr.Entries s out into) (approvedById : Id) (now : DateTime) :
    CashSound ((((s.addCash tr.source (-tr.amount)).addCash tr.destination tr.amount).insertAll
        .cashLedgerEntry [out, into]).modify .cashTransfer id (.complete approvedById now)) ∧
      CashMoves s ((((s.addCash tr.source (-tr.amount)).addCash tr.destination tr.amount).insertAll
        .cashLedgerEntry [out, into]).modify .cashTransfer id (.complete approvedById now)) := by
  obtain ⟨hapart, hamount⟩ := hs.transfers id tr htr
  generalize ht : (((s.addCash tr.source (-tr.amount)).addCash tr.destination tr.amount).insertAll
    .cashLedgerEntry [out, into]).modify .cashTransfer id (.complete approvedById now) = t
  have hsame : ((s.addCash tr.source (-tr.amount)).addCash tr.destination tr.amount).Agree
      [.vault, .teller] t := by
    rw [← ht]
    exact (Db.Agree.insertAll (m := .cashLedgerEntry) (by decide) _ _).trans
      (Db.Agree.modify (m := .cashTransfer) (by decide) _ _ _)
  have hheld : ∀ h, t.holding h = if h = tr.destination then b' + tr.amount
      else if h = tr.source then b - tr.amount else s.holding h := by
    intro h
    rw [Db.holding_congr hsame, Db.holding_addCash hb', Db.holding_addCash hb, ← sub_eq_add_neg]
  have hnew : t.cashEntries = s.cashEntries ++ [out, into] := by
    rw [← ht, Db.cashEntries, Db.table_modify_of_ne (by decide), Db.values_insertAll,
      Db.table_addCash (by decide) (by decide), Db.table_addCash (by decide) (by decide),
      Db.cashEntries]
  have hdest : s.holding? tr.destination = some b' := by
    rwa [Db.holding?_addCash, if_neg hapart.symm] at hb'
  have hold := Db.holding_eq hb
  have hold' := Db.holding_eq hdest
  have hinto : into.balanceAfter = b' + tr.amount := by
    rw [hentries.into_after, Db.holding_eq hb']
  refine ⟨⟨fun h => ?_, fun h => ?_, ?_⟩, ⟨[out, into], hnew, fun e he => ?_⟩,
    fun id' old new _ _ _ _ => ?_⟩
  · rw [hheld]
    have hnonneg := hs.nonneg tr.destination
    rw [hold'] at hnonneg
    by_cases hd : h = tr.destination
    · rw [if_pos hd]
      exact add_nonneg hnonneg hamount
    · rw [if_neg hd]
      by_cases hsrc : h = tr.source
      · rw [if_pos hsrc]
        exact sub_nonneg.mpr hcovers
      · rw [if_neg hsrc]
        exact hs.nonneg h
  · rw [hheld, Db.entrySum_of_entries hnew, ← hs.ledger]
    simp only [List.map_cons, List.map_nil, List.sum_cons, List.sum_nil, add_zero,
      hentries.out_holder, hentries.out_signed, hentries.into_holder, hentries.into_signed]
    by_cases hd : h = tr.destination
    · rw [if_pos hd, hd, if_neg hapart, if_pos rfl, hold', zero_add]
    · rw [if_neg hd, if_neg (Ne.symm hd)]
      by_cases hsrc : h = tr.source
      · rw [if_pos hsrc, hsrc, if_pos rfl, hold, add_zero, sub_eq_add_neg]
      · rw [if_neg hsrc, if_neg (Ne.symm hsrc), add_zero, add_zero]
  · intro id' tr' htr'
    have htransfers : (((s.addCash tr.source (-tr.amount)).addCash tr.destination
        tr.amount).insertAll .cashLedgerEntry [out, into]).table .cashTransfer =
          s.table .cashTransfer := by
      rw [Db.table_insertAll (by decide), Db.table_addCash (by decide) (by decide),
        Db.table_addCash (by decide) (by decide)]
    rw [← ht, Db.find?, Db.table_modify_self, htransfers] at htr'
    refine hs.transfers_modify (f := .complete approvedById now) (fun tr htr => ?_) id id' tr' ?_
    · exact ⟨htr.apart, htr.nonneg⟩
    · rwa [Db.find?, Db.table_modify_self]
  · rw [hheld]
    rcases List.mem_cons.mp he with rfl | he
    · rw [hentries.out_holder, if_neg hapart, if_pos rfl, hentries.out_after, hold]
    · rw [List.mem_singleton.mp he, hentries.into_holder, if_pos rfl, hinto]
  · rw [Db.totalCash_congr hsame, Db.totalCash_addCash hb', Db.totalCash_addCash hb, neg_add_cancel_right]

end Steps

/-- A statement keeps the books of the cash, and moves cash as its entries say. -/
theorem CashStep.sound {s t : Db} (h : CashStep s t) (hs : CashSound s) :
    CashSound t ∧ CashMoves s t := by
  cases h with
  | kept h => exact ⟨hs.congr h, .of_still (h.mono (by decide))⟩
  | requested hrow h =>
    obtain ⟨hsound, hmoves⟩ := cash_requested hs hrow
    exact ⟨hsound.congr h, hmoves.congr h⟩
  | entered hb hx hholder hsigned hafter h =>
    obtain ⟨hsound, hmoves⟩ := cash_entered hs hb hx hholder hsigned hafter
    exact ⟨hsound.congr h, hmoves.congr h⟩
  | @refused id h =>
    obtain ⟨hsound, hmoves⟩ := cash_refused hs id
    exact ⟨hsound.congr h, hmoves.congr h⟩
  | @transferred id tr b b' out into approvedById now htr hb hcovers hb' hentries h =>
    obtain ⟨hsound, hmoves⟩ := cash_transferred hs htr hb hcovers hb' hentries approvedById now
    exact ⟨hsound.congr h, hmoves.congr h⟩

/-! ## The code -/

section Run

variable {s s' : Db} {type : CashHolderType} {id : Id}

theorem Db.modify_vault_add (s : Db) (id : Id) {f : Vault → Vault} {x : Cents}
    (hf : ∀ v, f v = { v with balance := v.balance + x }) :
    s.modify .vault id f = s.addCash (.vault, id) x :=
  congrArg (s.modify .vault id) (funext hf)

theorem run_currentBalance_eq_ok {b : Cents} (h : (currentBalance type id).run s = (.ok b, s')) :
    s.holding? (type, id) = some b ∧ s' = s := by
  cases type with
  | vault =>
    obtain ⟨v, s₁, hread, h₁⟩ := Proc.run_bind_eq_ok h
    obtain ⟨hv, hs₁⟩ := run_findUniqueOrThrow_eq_ok hread
    obtain ⟨hb, hs'⟩ := Prod.mk.inj h₁
    refine ⟨?_, hs'.symm.trans hs₁⟩
    rw [← Except.ok.inj hb]
    exact congrArg (Option.map Vault.balance) hv
  | teller =>
    obtain ⟨t, s₁, hread, h₁⟩ := Proc.run_bind_eq_ok h
    obtain ⟨ht, hs₁⟩ := run_findUniqueOrThrow_eq_ok hread
    obtain ⟨hb, hs'⟩ := Prod.mk.inj h₁
    refine ⟨?_, hs'.symm.trans hs₁⟩
    rw [← Except.ok.inj hb]
    exact congrArg (Option.map Teller.currentHolding) ht

/-- A holding changes by whole cents. -/
theorem run_applyDelta_eq_ok {x r : Cents}
    (h : (applyDelta type id (toNumber x)).run s = (.ok r, s')) :
    ∃ b, s.holding? (type, id) = some b ∧ r = b + x ∧ s' = s.addCash (type, id) x := by
  cases type with
  | vault =>
    obtain ⟨v, s₁, hupdate, h₁⟩ := Proc.run_bind_eq_ok h
    obtain ⟨row, hrow, hv, hs₁⟩ := run_update_eq_ok hupdate
    obtain ⟨hr, hs'⟩ := Prod.mk.inj h₁
    refine ⟨row.balance, congrArg (Option.map Vault.balance) hrow, ?_, ?_⟩
    · rw [← Except.ok.inj hr, hv]
      exact increment_toNumber row.balance x
    · rw [← hs', hs₁]
      exact s.modify_vault_add id fun v => by rw [increment_toNumber]
  | teller =>
    obtain ⟨t, s₁, hupdate, h₁⟩ := Proc.run_bind_eq_ok h
    obtain ⟨row, hrow, ht, hs₁⟩ := run_update_eq_ok hupdate
    obtain ⟨hr, hs'⟩ := Prod.mk.inj h₁
    refine ⟨row.currentHolding, congrArg (Option.map Teller.currentHolding) hrow, ?_, ?_⟩
    · rw [← Except.ok.inj hr, ht]
      exact increment_toNumber row.currentHolding x
    · rw [← hs', hs₁]
      refine congrArg (s.modify .teller id) (funext fun t => ?_)
      rw [increment_toNumber]

/-- An approved transfer that its source does not cover is refused, and any other moves the
cash. -/
theorem run_transferCash_eq_ok {now : DateTime} {approvedById targetId : Id} {u : Unit}
    (h : (transferCash now approvedById targetId).run s = (.ok u, s')) :
    ∃ t b, s.find? .cashTransfer targetId = some t ∧ s.holding? t.source = some b ∧
      (s' = s.modify .cashTransfer targetId (fun t => { t with status := .rejected }) ∨
        t.amount ≤ b ∧ ∃ b' out into,
          (s.addCash t.source (-t.amount)).holding? t.destination = some b' ∧ t.Entries s out into ∧
          s' = (((s.addCash t.source (-t.amount)).addCash t.destination t.amount).insertAll
            .cashLedgerEntry [out, into]).modify .cashTransfer targetId
              (.complete approvedById now)) := by
  obtain ⟨t, s₁, hread, h₁⟩ := Proc.run_bind_eq_ok h
  obtain ⟨ht, hs₁⟩ := run_findUniqueOrThrow_eq_ok hread
  obtain ⟨b, s₂, hbalance, h₂⟩ := Proc.run_bind_eq_ok h₁
  obtain ⟨hb, hs₂⟩ := run_currentBalance_eq_ok hbalance
  rw [hs₁] at hb hs₂
  refine ⟨t, b, ht, hb, ?_⟩
  by_cases hcovers : toNumber b < toNumber t.amount
  · rw [if_pos hcovers] at h₂
    obtain ⟨row, s₃, hupdate, h₃⟩ := Proc.run_bind_eq_ok h₂
    obtain ⟨_, -, -, hs₃⟩ := run_update_eq_ok hupdate
    have hs' : s' = s₃ := (Prod.mk.inj h₃).2.symm
    left
    rw [hs', hs₃, hs₂]
  · rw [if_neg hcovers, ← toNumber_neg] at h₂
    obtain ⟨out, s₃, hout, h₃⟩ := Proc.run_bind_eq_ok h₂
    obtain ⟨b₁, hb₁, hout', hs₃⟩ := run_applyDelta_eq_ok hout
    obtain ⟨into, s₄, hinto, h₄⟩ := Proc.run_bind_eq_ok h₃
    obtain ⟨b', hb', hinto', hs₄⟩ := run_applyDelta_eq_ok hinto
    obtain ⟨e, s₅, hcreate, h₅⟩ := Proc.run_bind_eq_ok h₄
    obtain ⟨-, hs₅⟩ := run_create_eq_ok hcreate
    obtain ⟨e', s₆, hcreate', h₆⟩ := Proc.run_bind_eq_ok h₅
    obtain ⟨-, hs₆⟩ := run_create_eq_ok hcreate'
    obtain ⟨row, s₇, hupdate, h₇⟩ := Proc.run_bind_eq_ok h₆
    obtain ⟨_, -, -, hs₇⟩ := run_update_eq_ok hupdate
    have hs' : s' = s₇ := (Prod.mk.inj h₇).2.symm
    rw [hs₂] at hb₁ hs₃
    rw [hs₃] at hb' hs₄
    have hsame : b₁ = b := Option.some.inj (hb₁.symm.trans hb)
    right
    rw [hs', hs₇, hs₆, hs₅, hs₄]
    refine ⟨toNumber_le.mp (not_lt.mp hcovers), b', _, _, hb', ⟨rfl, rfl, ?_, rfl, rfl, ?_⟩, rfl⟩
    · have hsource : s.holding t.source = b := Db.holding_eq hb
      rw [hsource]
      show out = b - t.amount
      rw [hout', hsame, sub_eq_add_neg]
    · have hdest : (s.addCash t.source (-t.amount)).holding t.destination = b' := Db.holding_eq hb'
      rw [hdest]
      exact hinto'

theorem transferCash_step {now : DateTime} {approvedById targetId : Id} {u : Unit}
    (h : (transferCash now approvedById targetId).run s = (.ok u, s')) : CashStep s s' := by
  obtain ⟨t, b, ht, hb, hs' | ⟨hcovers, b', out, into, hb', hentries, hs'⟩⟩ :=
    run_transferCash_eq_ok h
  · rw [hs']
    exact .refused (.refl _)
  · rw [hs']
    exact .transferred ht hb hcovers hb' hentries (.refl _)

/-- A receipt or a withdrawal of whole cents. -/
theorem run_moveVault_eq_ok {vaultId : Id} {type : CashEntryType} {c : Cents} {r : Vault}
    (hc : 0 ≤ c) (h : (moveVault vaultId type (toNumber c)).run s = (.ok r, s')) :
    ∃ b x, s.holding? (.vault, vaultId) = some b ∧ (0 ≤ x ∨ 0 ≤ b + x) ∧ r.balance = b + x ∧
      (∀ e : CashLedgerEntry, e.type = type.entryType → e.amount = c → e.signed = x) ∧
      s' = s.addCash (.vault, vaultId) x := by
  cases type with
  | receipt =>
    obtain ⟨row, hrow, hr, hs'⟩ := run_update_eq_ok h
    refine ⟨row.balance, c, congrArg (Option.map Vault.balance) hrow, .inl hc, ?_, ?_, ?_⟩
    · rw [hr]
      exact increment_toNumber row.balance c
    · intro e htype hamount
      rw [CashLedgerEntry.signed, htype, hamount]
      rfl
    · rw [hs']
      exact s.modify_vault_add vaultId fun v => by rw [increment_toNumber]
  | withdrawal =>
    obtain ⟨guarded, s₁, hguarded, h₁⟩ := Proc.run_bind_eq_ok h
    obtain ⟨htrue, h₂⟩ := run_require_bind_eq_ok h₁
    subst htrue
    obtain ⟨row, hrow, hcovers, hs₁⟩ := run_updateGuarded_eq_true hguarded
    obtain ⟨hr, hs'⟩ := run_findUniqueOrThrow_eq_ok h₂
    have hadd : s₁ = s.addCash (.vault, vaultId) (-c) := by
      rw [hs₁]
      exact s.modify_vault_add vaultId fun v => by rw [← toNumber_neg, increment_toNumber]
    have hbalance : s.holding? (.vault, vaultId) = some row.balance :=
      congrArg (Option.map Vault.balance) hrow
    have hcovers' : c ≤ row.balance := toNumber_le.mp (of_decide_eq_true hcovers)
    refine ⟨row.balance, -c, hbalance, .inr ?_, ?_, ?_, hs'.trans hadd⟩
    · rw [← sub_eq_add_neg]
      exact sub_nonneg.mpr hcovers'
    · have hafter := Db.holding?_addCash s (.vault, vaultId) (-c) (.vault, vaultId)
      rw [if_pos rfl, hbalance, ← hadd] at hafter
      have hread : s₁.holding? (.vault, vaultId) = some r.balance :=
        congrArg (Option.map Vault.balance) hr
      exact Option.some.inj (hread.symm.trans hafter)
    · intro e htype hamount
      rw [CashLedgerEntry.signed, htype, hamount]
      rfl

/-- The transaction of a receipt or a withdrawal. -/
theorem cashEntryInTx_step {auth : Auth} {now : DateTime} {vaultId : Id} {type : CashEntryType}
    {c : Cents} (hc : 0 ≤ c) {notes : Option String} {description : String}
    {lines : List JournalLineInput} {r : Id}
    (h : (cashEntryInTx auth now vaultId type (toNumber c) notes description lines).run s =
      (.ok r, s')) : CashStep s s' := by
  obtain ⟨vault, s₁, hmove, h₁⟩ := Proc.run_bind_eq_ok h
  obtain ⟨b, x, hb, hx, hbalance, hsigned, hs₁⟩ := run_moveVault_eq_ok hc hmove
  obtain ⟨entry, s₂, hcreate, h₂⟩ := Proc.run_bind_eq_ok h₁
  obtain ⟨-, hs₂⟩ := run_create_eq_ok hcreate
  obtain ⟨journal, s₃, hjournal, h₃⟩ := Proc.run_bind_eq_ok h₂
  have hquiet : Quiet cashTables (postJournal auth now description lines) :=
    .postJournal (by decide) (by decide) auth now description lines
  have hrest := hquiet.run s₂
  rw [hjournal, hs₂, hs₁] at hrest
  have hs' : s' = s₃ := (Prod.mk.inj h₃).2.symm
  rw [← hs'] at hrest
  exact .entered hb hx rfl (hsigned _ rfl (ofNumber_toNumber c)) hbalance hrest

/-- What the transaction of a disbursement does to the cash. -/
theorem Disbursement.run_inTx_cash {d : Disbursement} {loan : Loan}
    (h : d.inTx.run s = (.ok loan, s')) :
    ∃ b, s.holding? (.vault, d.vaultId) = some b ∧ d.principal ≤ b ∧
      ((s.addCash (.vault, d.vaultId) (-d.principal)).insert .cashLedgerEntry
        (d.entry (b - d.principal))).Agree (.cashBalancing :: cashTables) s' := by
  obtain ⟨⟨vault, hvault, hcovers⟩, -, -, -, hs'⟩ := d.run_inTx_eq_ok h
  have hb : s.holding? (.vault, d.vaultId) = some vault.balance :=
    congrArg (Option.map Vault.balance) hvault
  have hbalance : s.vaultBalance d.vaultId = vault.balance := by
    rw [Db.vaultBalance, hvault]
    rfl
  have hpay : d.pay s = (s.addCash (.vault, d.vaultId) (-d.principal)).insert .cashLedgerEntry
      (d.entry (vault.balance - d.principal)) := by
    rw [Disbursement.pay, hbalance]
    exact congrArg (fun s => Db.insert s .cashLedgerEntry _)
      (s.modify_vault_add d.vaultId fun v => by rw [sub_eq_add_neg])
  have hpaid : (d.pay s).Agree (.cashBalancing :: cashTables) s' := by
    have hjournal : (d.pay s).Agree (.cashBalancing :: cashTables)
        ((d.pay s).insert .journal d.journal) :=
      .insert (by decide) _ _
    have hrows : (d.post (d.pay s)).Agree (.cashBalancing :: cashTables) (d.payOut s) := .insertAll (by decide) _ _
    rw [hs']
    exact ((hjournal.trans (.applyEffects (by decide) _ _)).trans hrows).trans
      (Db.Agree.modify (m := .loan) (by decide) _ _ _)
  rw [hpay] at hpaid
  exact ⟨vault.balance, hb, hcovers, hpaid⟩

theorem Disbursement.cashStep {d : Disbursement} {loan : Loan}
    (h : d.inTx.run s = (.ok loan, s')) : CashStep s s' := by
  obtain ⟨b, hb, hcovers, hpaid⟩ := d.run_inTx_cash h
  have hnonneg : 0 ≤ b + -d.principal := by
    rw [← sub_eq_add_neg]
    exact sub_nonneg.mpr hcovers
  exact .entered (x := -d.principal) hb (.inr hnonneg) rfl rfl (sub_eq_add_neg _ _)
    (hpaid.mono (by decide))

end Run

/-- A statement that touches no table of cash. -/
theorem Quiet.cashStep {α : Type} {p : Handler α} (hp : Quiet cashTables p) : p.Every CashStep :=
  Proc.Every.imp hp fun _ _ h => .kept h

namespace CashStep

theorem refl (s : Db) : CashStep s s := .kept (.refl s)

/-- What comes after a step leaves the cash alone. -/
theorem agree {s t u : Db} (h : CashStep s t) (hsame : t.Agree cashTables u) : CashStep s u := by
  cases h with
  | kept h => exact .kept (h.trans hsame)
  | requested hrow h => exact .requested hrow (h.trans hsame)
  | entered hb hx hholder hsigned hafter h => exact .entered hb hx hholder hsigned hafter (h.trans hsame)
  | refused h => exact .refused (h.trans hsame)
  | transferred htr hb hcovers hb' hentries h =>
    exact .transferred htr hb hcovers hb' hentries (h.trans hsame)

/-- What came before a step left the cash alone. -/
theorem of_agree {s t u : Db} (hsame : s.Agree cashTables t) (h : CashStep t u) : CashStep s u := by
  have hcash : s.Agree [.vault, .teller] t := hsame.mono (by decide)
  cases h with
  | kept h => exact .kept (hsame.trans h)
  | requested hrow h => exact .requested hrow ((hsame.insert_congr _).trans h)
  | @entered holder b x e hb hx hholder hsigned hafter h =>
    rw [Db.holding?_congr hcash] at hb
    have hrows := (hsame.addCash_congr holder x).insert_congr (m := .cashLedgerEntry) e
    exact .entered hb hx hholder hsigned hafter (hrows.trans h)
  | @refused id h => exact .refused ((hsame.modify_congr id _).trans h)
  | @transferred id tr b b' out into approvedById now htr hb hcovers hb' hentries h =>
    have hout := hsame.addCash_congr tr.source (-tr.amount)
    have hcash' : (s.addCash tr.source (-tr.amount)).Agree [.vault, .teller]
        (t.addCash tr.source (-tr.amount)) := hout.mono (by decide)
    rw [hsame.find? (by decide)] at htr
    rw [Db.holding?_congr hcash] at hb
    rw [Db.holding?_congr hcash'] at hb'
    have hentries' : tr.Entries s out into :=
      { hentries with
        out_after := by rw [hentries.out_after, Db.holding_congr hcash]
        into_after := by rw [hentries.into_after, Db.holding_congr hcash'] }
    exact .transferred htr hb hcovers hb' hentries' ((((hout.addCash_congr tr.destination
      tr.amount).insertAll_congr .cashLedgerEntry [out, into]).modify_congr id _).trans h)

end CashStep

/-- A receipt or a withdrawal reads, moves the cash in one transaction, and leaves a record. -/
theorem recordCashEntry_everyStep {D : Access → Db → Db → Prop} {watched : List Model}
    (haudit : Model.auditLog ∉ watched) (hagree : ∀ lab s t, s.Agree watched t → D lab s t)
    {auth : Auth} {now : DateTime} {vaultId : Id} {type : CashEntryType} {amount : ℚ}
    {notes : Option String}
    (h : 0 < amount → ∀ description lines s entry t,
      (cashEntryInTx auth now vaultId type amount notes description lines).run s = (.ok entry, t) →
        D { posting := some ⟨auth.institutionId, now, lines.map fun l => l.accountId⟩,
            movesCash := some (vaultId, type.signed amount) } s t) :
    (recordCashEntry auth now vaultId type amount notes).EveryStep D := by
  have hquiet : ∀ {α : Type} {p : Handler α}, Quiet watched p → p.EveryStep D :=
    fun hp => .of_every hagree hp
  refine .require_bind fun hpos => ?_
  refine (hquiet (.query _)).bind fun found => (Proc.EveryStep.orFail _ _).bind fun vault => ?_
  refine (Proc.EveryStep.require _ _).bind fun _ => (hquiet (.query _)).bind fun mappings => ?_
  refine (Proc.EveryStep.orFail _ _).bind fun accounts => ?_
  refine (hquiet (.requirePostablePeriod _ _)).bind fun _ => ?_
  refine (hquiet (.findUniqueOrThrow _ _)).bind fun vaultCash => ?_
  refine (hquiet (.findUniqueOrThrow _ _)).bind fun bank => ?_
  refine (Proc.EveryStep.require _ _).bind fun _ => ?_
  refine Proc.EveryStep.bind ?_ fun entry => ?_
  · exact .transaction (fun s => hagree _ s s (.refl s)) (h hpos _ _)
  · exact (hquiet (.create haudit _)).bind fun _ => trivial

theorem cashStep_recordCashEntry {amount : ℚ} (hwhole : WholeCent amount) (auth : Auth)
    (now : DateTime) (vaultId : Id) (type : CashEntryType) (notes : Option String) :
    (recordCashEntry auth now vaultId type amount notes).Every CashStep := by
  obtain ⟨c, rfl⟩ := hwhole
  have hkept : ∀ (_ : Access) s t, s.Agree cashTables t → CashStep s t := fun _ _ _ => .kept
  apply Proc.EveryStep.every
  apply recordCashEntry_everyStep (D := fun _ => CashStep) (by decide) hkept
  intro hpos description lines s entry t hrun
  exact cashEntryInTx_step (toNumber_pos.mp hpos).le hrun

theorem cashStep_disburseLoan (js : Js) (auth : Auth) (now : DateTime) (loanId : Id)
    (vaultId : Option Id) : (disburseLoan js auth now loanId vaultId).Every CashStep := by
  have hkept : ∀ (_ : Access) s t, s.Agree cashTables t → CashStep s t := fun _ _ _ => .kept
  apply Proc.EveryStep.every
  apply disburseLoan_everyStep (D := fun _ => CashStep) (by decide) (by decide) hkept
  exact fun d _ s loan t => d.cashStep

theorem Quiet.getHolderBalance {watched : List Model} (type : CashHolderType) (id : Id) :
    Quiet watched (NexusEfos.getHolderBalance type id) := by
  cases type with
  | vault => exact (query _).bind fun _ => pure _
  | teller => exact (query _).bind fun _ => pure _

/-- The endpoint refuses a transfer from a holder to itself. -/
theorem cashStep_requestTransfer (auth : Auth) (body : TransferRequest) :
    (requestTransfer auth body).Every CashStep := by
  refine .require_bind fun hbody => .require_bind fun happart => ?_
  refine (Quiet.getHolderBalance _ _).cashStep.bind fun _ => ?_
  refine (Quiet.orFail _ _).cashStep.bind fun _ => (Quiet.require _ _).cashStep.bind fun _ => ?_
  refine (Quiet.getHolderBalance _ _).cashStep.bind fun _ => ?_
  refine (Quiet.orFail _ _).cashStep.bind fun _ => ?_
  let row : CashTransfer :=
    { institutionId := auth.institutionId, fromType := body.fromType, fromId := body.fromId,
      toType := body.toType, toId := body.toId, amount := ofNumber body.amount,
      reason := body.reason }
  have hrow : row.Sound := by
    constructor
    · intro hsame
      exact happart ⟨congrArg Prod.fst hsame, congrArg Prod.snd hsame⟩
    · exact ofNumber_nonneg hbody.1.le
  have hcreate : (create .cashTransfer row).Every CashStep :=
    ⟨fun s => .requested hrow (.refl _), fun _ => trivial⟩
  refine hcreate.bind fun transfer => (Quiet.create (by decide) _).cashStep.bind fun _ => ?_
  exact (Quiet.create (by decide) _).cashStep.bind fun _ => trivial

/-- The effect of a decision on a transfer moves its cash, or refuses it. -/
theorem ResolveCall.effect_cashStep {call : ResolveCall} {existing : ApprovalRequest} {s s' : Db}
    {u : Unit} (h : (call.effect existing).run s = (.ok u, s')) : CashStep s s' := by
  by_cases htype : existing.type = .cashTransfer
  · unfold effect at h
    cases hdecision : call.decision with
    | approve =>
      simp only [hdecision, applyApproval, htype] at h
      exact transferCash_step h
    | reject =>
      simp only [hdecision, applyRejection, htype] at h
      obtain ⟨row, s₁, hupdate, h₁⟩ := Proc.run_bind_eq_ok h
      obtain ⟨_, -, -, hs₁⟩ := run_update_eq_ok hupdate
      have hs' : s' = s₁ := (Prod.mk.inj h₁).2.symm
      rw [hs', hs₁]
      exact .refused (.refl _)
  · have hquiet : Quiet cashTables (call.effect existing) := by
      apply call.quiet_effect
      revert htype
      cases existing.type <;> decide
    have hrun := hquiet.run s
    rw [h] at hrun
    exact .kept hrun

theorem ResolveCall.cashStep (call : ResolveCall) : call.handler.Every CashStep := by
  refine (Quiet.query _).cashStep.bind fun found => (Quiet.orFail _ _).cashStep.bind fun existing => ?_
  refine (Quiet.require _ _).cashStep.bind fun _ => (Quiet.require _ _).cashStep.bind fun _ => ?_
  refine Proc.Every.of_commit CashStep.refl _ fun s u s' h => ?_
  obtain ⟨_, s₁, hclaim, h₁⟩ := Proc.run_bind_eq_ok (Proc.run_interrupted_eq_ok h)
  obtain ⟨_, -, -, hs₁⟩ := run_claim_eq_ok hclaim
  obtain ⟨_, s₂, heffect, h₂⟩ := Proc.run_bind_eq_ok h₁
  obtain ⟨_, s₃, haudit, h₃⟩ := Proc.run_bind_eq_ok h₂
  obtain ⟨-, hs₃⟩ := run_create_eq_ok haudit
  have hs' : s' = s₃ := (Prod.mk.inj h₃).2.symm
  have hbefore : s.Agree cashTables s₁ := by
    rw [hs₁]
    exact .modify (m := .approvalRequest) (by decide) _ _ _
  have hafter : s₂.Agree cashTables s' := by
    rw [hs', hs₃]
    exact .insert (by decide) _ _
  exact .of_agree hbefore ((effect_cashStep heffect).agree hafter)

/-! ## Any number of calls -/

/-- A call that can move cash: a receipt or a withdrawal, a disbursement, a request for a
transfer, and an approval or a rejection of any request. -/
inductive CashOperation
  | recordCashEntry (auth : Auth) (now : DateTime) (vaultId : Id) (type : CashEntryType)
      (amount : ℚ) (notes : Option String)
  | disburse (js : Js) (auth : Auth) (now : DateTime) (loanId : Id) (vaultId : Option Id)
  | requestTransfer (auth : Auth) (body : TransferRequest)
  | resolve (call : ResolveCall)

namespace CashOperation

def handler : CashOperation → Handler Unit
  | recordCashEntry auth now vaultId type amount notes => do
    let _ ← NexusEfos.recordCashEntry auth now vaultId type amount notes
  | disburse js auth now loanId vaultId => do
    let _ ← disburseLoan js auth now loanId vaultId
  | requestTransfer auth body => do
    let _ ← NexusEfos.requestTransfer auth body
  | resolve call => call.handler

/-- The amount is a whole number of cents.  A transfer is rounded when it is requested. -/
def IsWholeCent : CashOperation → Prop
  | recordCashEntry _ _ _ _ amount _ => WholeCent amount
  | disburse .. => True
  | requestTransfer .. => True
  | resolve _ => True

theorem cashStep {op : CashOperation} (hwhole : op.IsWholeCent) : op.handler.Every CashStep := by
  cases op with
  | recordCashEntry auth now vaultId type amount notes =>
    exact (cashStep_recordCashEntry hwhole auth now vaultId type notes).bind fun _ => trivial
  | disburse js auth now loanId vaultId =>
    exact (cashStep_disburseLoan js auth now loanId vaultId).bind fun _ => trivial
  | requestTransfer auth body => exact (cashStep_requestTransfer auth body).bind fun _ => trivial
  | resolve call => exact call.cashStep

end CashOperation

section Calls

variable {ι : Type} [DecidableEq ι]

/-- Calls that share the database. -/
def cashPool (ops : ι → CashOperation) (s : Db) : Pool ι Access Db Failure Unit :=
  ⟨fun i => (ops i).handler, s⟩

/-- No cash yet, and no transfer from a holder to itself. -/
structure CashStart (s : Db) : Prop where
  empty : ∀ h, s.holding h = 0
  entries : s.cashEntries = []
  transfers : ∀ id t, s.find? .cashTransfer id = some t → t.Sound

theorem CashStart.sound {s : Db} (h : CashStart s) : CashSound s where
  nonneg := fun holder => (h.empty holder).ge
  ledger := fun holder => by
    rw [h.empty, Db.entrySum, h.entries]
    rfl
  transfers := h.transfers

/-- After every schedule every holding is the signed sum of its entries and not negative, and
the last step of the schedule wrote entries that record the holdings right after it; if it
completed a transfer, the sum of the cash is what it was. -/
theorem cash_in_custody (ops : ι → CashOperation) (hwhole : ∀ i, (ops i).IsWholeCent) {s : Db}
    (hstart : CashStart s) (sched : List ι) :
    CashSound ((cashPool ops s).run sched).state ∧
      ∀ i, CashMoves ((cashPool ops s).run sched).state
        ((cashPool ops s).run (sched ++ [i])).state := by
  have hsteps : ∀ i, ((cashPool ops s).threads i).Every CashStep :=
    fun i => CashOperation.cashStep (hwhole i)
  have hsound : CashSound ((cashPool ops s).run sched).state :=
    Pool.run_invariant (fun t u h ht => (h.sound ht).1) hsteps hstart.sound sched
  refine ⟨hsound, fun i => ?_⟩
  rcases Pool.last_step_every hsteps sched i with hsame | hstep
  · rw [hsame]
    exact .of_still (.refl _)
  · exact (hstep.sound hsound).2

end Calls

/-! ## A receipt and a transfer -/

/-- An institution with two empty vaults. -/
def cashLedger : Db :=
  ((((((Db.empty.insert .gLAccount
    { institutionId := 1, code := "1000", name := "Vault cash", category := .asset }).insert
      .gLAccount { institutionId := 1, code := "1010", name := "Bank", category := .asset }).insert
      .cashVaultGLAccountMapping ⟨1, "Vault Cash", 1⟩).insert
      .cashVaultGLAccountMapping ⟨1, "Bank Account (External)", 2⟩).insert
      .financialPeriod { institutionId := 1, startDate := 0, endDate := 10 }).insert
      .vault { institutionId := 1, name := "Main", status := .opened }).insert
      .vault { institutionId := 1, name := "Branch", status := .opened }

theorem cashStart_cashLedger : CashStart cashLedger where
  empty := by
    intro h
    obtain ⟨type, id⟩ := h
    cases type with
    | vault =>
      show ((cashLedger.find? .vault id).map Vault.balance).getD 0 = 0
      cases hv : cashLedger.find? .vault id with
      | none => rfl
      | some v =>
        have hmem : v ∈ (cashLedger.table .vault).values := OrderedMap.mem_values.mpr ⟨id, hv⟩
        rcases List.mem_cons.mp hmem with rfl | hmem
        · rfl
        · rw [List.mem_singleton.mp hmem]
          rfl
    | teller => rfl
  entries := rfl
  transfers := nofun

/-- The main vault receives 100.00, and 40.00 of it go to the branch once the transfer is
approved. -/
def receiptAndTransfer : Fin 3 → CashOperation
  | 0 => .recordCashEntry ⟨1, 2⟩ 1 1 .receipt 100 none
  | 1 => .requestTransfer ⟨1, 2⟩ ⟨.vault, 1, .vault, 2, 40, "Branch float"⟩
  | 2 => .resolve { decision := .approve, auth := ⟨1, 3⟩, now := 2, requestId := 1 }

theorem cash_in_custody_receiptAndTransfer :
    CashSound ((cashPool receiptAndTransfer cashLedger).run
        (List.replicate 7 0 ++ List.replicate 5 1 ++ [2])).state ∧
      ∀ i, CashMoves ((cashPool receiptAndTransfer cashLedger).run
          (List.replicate 7 0 ++ List.replicate 5 1 ++ [2])).state
        ((cashPool receiptAndTransfer cashLedger).run
          ((List.replicate 7 0 ++ List.replicate 5 1 ++ [2]) ++ [i])).state := by
  refine cash_in_custody receiptAndTransfer ?_ cashStart_cashLedger _
  intro i
  match i with
  | 0 => exact ⟨10000, by norm_num [toNumber]⟩
  | 1 => trivial
  | 2 => trivial

end NexusEfos
