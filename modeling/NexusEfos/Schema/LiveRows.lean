/-
Tables in which at most one row of a key is live.

A row is live if it is the one in force: an ACTIVE salary structure, an active tax table.  A
statement that makes no row live keeps the rule.  One that makes a row live keeps it if no other
row of the key is live then, which is what the statement before it should see to.
-/
import NexusEfos.Schema.Db

namespace NexusEfos
namespace Db

variable {κ : Type} {m : Model} {live : Row m → Bool} {key : Row m → κ} {s t : Db}

/-- Of the rows of a key, at most one is live. -/
def AtMostOne (m : Model) (live : Row m → Bool) (key : Row m → κ) (s : Db) : Prop :=
  ∀ id row id' row', s.find? m id = some row → s.find? m id' = some row' → live row = true →
    live row' = true → key row = key row' → id = id'

theorem atMostOne_iff : s.AtMostOne m live key ↔ ∀ e ∈ (s.table m).entries,
    ∀ e' ∈ (s.table m).entries, live e.2 = true → live e'.2 = true → key e.2 = key e'.2 →
      e.1 = e'.1 := by
  constructor
  · intro h e he e' he'
    exact h e.1 e.2 e'.1 e'.2 (OrderedMap.get?_eq_some.mpr he) (OrderedMap.get?_eq_some.mpr he')
  · intro h id row id' row' hrow hrow'
    exact h (id, row) (OrderedMap.get?_eq_some.mp hrow) (id', row')
      (OrderedMap.get?_eq_some.mp hrow')

instance decidableAtMostOne [DecidableEq κ] (m : Model) (live : Row m → Bool) (key : Row m → κ)
    (s : Db) : Decidable (s.AtMostOne m live key) := decidable_of_iff _ atMostOne_iff.symm

/-- The row was live before, under the same key. -/
def LiveBefore (m : Model) (live : Row m → Bool) (key : Row m → κ) (s : Db) (id : Id)
    (row : Row m) : Prop :=
  ∃ row₀, s.find? m id = some row₀ ∧ live row₀ = true ∧ key row₀ = key row

/-- No row becomes live. -/
theorem AtMostOne.of_liveBefore (h : s.AtMostOne m live key)
    (hbefore : ∀ id row, t.find? m id = some row → live row = true →
      s.LiveBefore m live key id row) : t.AtMostOne m live key := by
  intro id row id' row' hrow hrow' hlive hlive' hkey
  obtain ⟨row₀, hrow₀, hlive₀, hkey₀⟩ := hbefore id row hrow hlive
  obtain ⟨row₁, hrow₁, hlive₁, hkey₁⟩ := hbefore id' row' hrow' hlive'
  apply h id row₀ id' row₁ hrow₀ hrow₁ hlive₀ hlive₁
  rw [hkey₀, hkey₁, hkey]

theorem AtMostOne.of_table_eq (h : s.AtMostOne m live key) (ht : t.table m = s.table m) :
    t.AtMostOne m live key := by
  intro id row id' row' hrow hrow'
  rw [find?, ht] at hrow hrow'
  exact h id row id' row' hrow hrow'

/-- One row becomes live, and no other row of its key is. -/
theorem AtMostOne.switch (h : s.AtMostOne m live key) (id : Id) (row : Row m)
    (hrow : t.find? m id = some row)
    (hothers : ∀ id' row', id' ≠ id → t.find? m id' = some row' → live row' = true →
      key row' ≠ key row ∧ s.LiveBefore m live key id' row') : t.AtMostOne m live key := by
  intro id₁ row₁ id₂ row₂ hrow₁ hrow₂ hlive₁ hlive₂ hkey
  by_cases hid₁ : id₁ = id
  · by_cases hid₂ : id₂ = id
    · rw [hid₁, hid₂]
    · rw [hid₁, hrow] at hrow₁
      rw [← Option.some.inj hrow₁] at hkey
      exact absurd hkey.symm (hothers id₂ row₂ hid₂ hrow₂ hlive₂).1
  · by_cases hid₂ : id₂ = id
    · rw [hid₂, hrow] at hrow₂
      rw [← Option.some.inj hrow₂] at hkey
      exact absurd hkey (hothers id₁ row₁ hid₁ hrow₁ hlive₁).1
    · obtain ⟨row₃, hrow₃, hlive₃, hkey₃⟩ := (hothers id₁ row₁ hid₁ hrow₁ hlive₁).2
      obtain ⟨row₄, hrow₄, hlive₄, hkey₄⟩ := (hothers id₂ row₂ hid₂ hrow₂ hlive₂).2
      apply h id₁ row₃ id₂ row₄ hrow₃ hrow₄ hlive₃ hlive₄
      rw [hkey₃, hkey₄, hkey]

/-- A new row of a key of its own, or one that is not live. -/
theorem AtMostOne.insert (h : s.AtMostOne m live key) {new : Row m}
    (hnew : live new = true → ∀ id row, s.find? m id = some row → live row = true →
      key row ≠ key new) : (s.insert m new).AtMostOne m live key := by
  by_cases hlive : live new = true
  · apply h.switch (s.nextId m) new
    · rw [find?_insert, if_pos rfl]
    · intro id row hid hrow hlive'
      rw [find?_insert, if_neg hid] at hrow
      exact ⟨hnew hlive id row hrow hlive', row, hrow, hlive', rfl⟩
  · apply h.of_liveBefore
    intro id row hrow hlive'
    rw [find?_insert] at hrow
    split at hrow
    · rw [← Option.some.inj hrow] at hlive'
      exact absurd hlive' hlive
    · exact ⟨row, hrow, hlive', rfl⟩

/-- A row is changed and does not become live. -/
theorem AtMostOne.modify (h : s.AtMostOne m live key) (id : Id) {f : Row m → Row m}
    (hf : ∀ row, live (f row) = true → live row = true ∧ key row = key (f row)) :
    (s.modify m id f).AtMostOne m live key := by
  apply h.of_liveBefore
  intro id' row hrow hlive
  rw [find?_modify] at hrow
  split at hrow
  · obtain ⟨row₀, hrow₀, rfl⟩ := Option.map_eq_some_iff.mp hrow
    exact ⟨row₀, hrow₀, hf row₀ hlive⟩
  · exact ⟨row, hrow, hlive, rfl⟩

/-- The live rows that are picked out have different keys. -/
theorem AtMostOne.nodup_keys (h : s.AtMostOne m live key) {p : Id × Row m → Bool}
    (hp : ∀ e ∈ (s.table m).entries, p e = true → live e.2 = true) :
    (((s.table m).entries.filter p).map fun e => key e.2).Nodup := by
  have hfound : ∀ e ∈ (s.table m).entries.filter p,
      s.find? m e.1 = some e.2 ∧ live e.2 = true := by
    intro e he
    obtain ⟨hmem, hpe⟩ := List.mem_filter.mp he
    exact ⟨OrderedMap.get?_eq_some.mpr hmem, hp e hmem hpe⟩
  apply List.Nodup.map_on
  · intro e he e' he' hkey
    obtain ⟨hrow, hlive⟩ := hfound e he
    obtain ⟨hrow', hlive'⟩ := hfound e' he'
    have hid := h e.1 e.2 e'.1 e'.2 hrow hrow' hlive hlive' hkey
    rw [hid, hrow'] at hrow
    exact Prod.ext hid (Option.some.inj hrow).symm
  · exact ((List.Nodup.of_map Prod.fst (s.table m).nodup_keys).filter p)

/-! ## Rows that keep their key -/

/-- No row comes or goes, and what a row says of itself in `key` stays. -/
def SameOn (m : Model) (key : Row m → κ) (s t : Db) : Prop :=
  ((t.table m).entries.map fun e => (e.1, key e.2)) =
    (s.table m).entries.map fun e => (e.1, key e.2)

namespace SameOn

variable {u : Db}

theorem of_table_eq (h : t.table m = s.table m) : SameOn m key s t := by
  unfold SameOn
  rw [h]

theorem trans (h : SameOn m key s t) (h' : SameOn m key t u) : SameOn m key s u :=
  Eq.trans h' h

theorem symm (h : SameOn m key s t) : SameOn m key t s := Eq.symm h

theorem of_updateAll {f : Id → Row m → Row m} (hf : ∀ id row, key (f id row) = key row)
    (h : t.table m = (s.table m).updateAll f) : SameOn m key s t := by
  unfold SameOn OrderedMap.updateAll at *
  rw [h, List.map_map]
  apply List.map_congr_left
  intro e _
  exact Prod.ext rfl (hf e.1 e.2)

theorem modify (s : Db) (id : Id) {f : Row m → Row m} (hf : ∀ row, key (f row) = key row) :
    SameOn m key s (s.modify m id f) := by
  apply of_updateAll _ (table_modify_self s m id f)
  intro id' row
  split
  · exact hf row
  · rfl

/-- A part of the key stays too. -/
theorem map {μ : Type} (h : SameOn m key s t) (g : κ → μ) : SameOn m (fun row => g (key row)) s t := by
  have hmapped := congrArg (List.map fun e => (e.1, g e.2)) h
  rwa [List.map_map, List.map_map] at hmapped

theorem find? (h : SameOn m key s t) (id : Id) :
    (t.find? m id).map key = (s.find? m id).map key := by
  have hlookup : ∀ r : Db, (r.find? m id).map key =
      (((r.table m).entries.map fun e => (e.1, key e.2)).find? fun e => e.1 = id).map Prod.snd := by
    intro r
    rw [List.find?_map, Option.map_map]
    unfold Db.find? OrderedMap.get?
    rw [Option.map_map]
    rfl
  rw [hlookup, hlookup, h]

theorem find?_eq_some (h : SameOn m key s t) {id : Id} {row : Row m} (hrow : t.find? m id = some row) :
    ∃ row₀, s.find? m id = some row₀ ∧ key row₀ = key row := by
  have hkey := h.find? id
  rw [hrow, Option.map_some] at hkey
  exact Option.map_eq_some_iff.mp hkey.symm

/-- Sums over what the rows say of themselves. -/
theorem total {M : Type} [AddCommMonoid M] (h : SameOn m key s t) (f : κ → M) :
    (t.table m).total (fun _ row => f (key row)) = (s.table m).total fun _ row => f (key row) := by
  have hmapped := congrArg (fun l => (l.map fun e => f e.2).sum) h
  rwa [List.map_map, List.map_map] at hmapped

/-- Of the rows of a key there is still at most one. -/
theorem atMostOne (h : SameOn m key s t) (hs : s.AtMostOne m (fun _ => true) key) :
    t.AtMostOne m (fun _ => true) key := by
  apply hs.of_liveBefore
  intro id row hrow _
  obtain ⟨row₀, hrow₀, hkey⟩ := h.find?_eq_some hrow
  exact ⟨row₀, hrow₀, rfl, hkey⟩

end SameOn

end Db
end NexusEfos
