/-
Maps that remember the order in which their keys first arrived.

An `OrderedMap κ α` is a list of key-value pairs in which no key occurs twice,
and the structure carries that fact, so a map with a duplicated key cannot be
built.  Setting a key that is present replaces its value in place, and setting a
new key appends it.  This is the behaviour of a JavaScript `Map`, and of a
database table that is read back in insertion order with its primary key as the
key.

Two families of results are the reason for the file.  The `get?` lemmas say what
each operation does to a single key.  The `total` lemmas say what it does to a
sum over all the entries, and conservation arguments use them in place of an
induction over the entries.
-/
import Mathlib.Algebra.BigOperators.Group.Finset.Basic
import Mathlib.Algebra.BigOperators.Group.List.Basic
import Mathlib.Algebra.Order.BigOperators.Group.List
import Mathlib.Data.List.Nodup
import Mathlib.Tactic.Abel

namespace NexusEfos

universe u v w

/-- Key-value pairs in order of arrival, each key once. -/
structure OrderedMap (κ : Type u) (α : Type v) where
  entries : List (κ × α)
  nodup_keys : (entries.map Prod.fst).Nodup

namespace OrderedMap

variable {κ : Type u} {α : Type v}

/-- The keys, in order of arrival. -/
def keys (m : OrderedMap κ α) : List κ := m.entries.map Prod.fst

/-- The values, in the order of their keys. -/
def values (m : OrderedMap κ α) : List α := m.entries.map Prod.snd

/-- The map without entries. -/
def empty : OrderedMap κ α := ⟨[], List.nodup_nil⟩

instance : Inhabited (OrderedMap κ α) := ⟨empty⟩

/-- Rewrite every value, knowing its key. -/
def updateAll (f : κ → α → α) (m : OrderedMap κ α) : OrderedMap κ α :=
  ⟨m.entries.map fun e => (e.1, f e.1 e.2), by
    simpa [List.map_map, Function.comp_def] using m.nodup_keys⟩

/-- Keep the entries a test accepts. -/
def filter (p : κ → α → Bool) (m : OrderedMap κ α) : OrderedMap κ α :=
  ⟨m.entries.filter fun e => p e.1 e.2,
    m.nodup_keys.sublist (List.filter_sublist.map Prod.fst)⟩

/-- Append an entry under a key that is not present. -/
def push (m : OrderedMap κ α) (k : κ) (a : α) (h : k ∉ m.keys) : OrderedMap κ α :=
  ⟨m.entries ++ [(k, a)], by
    rw [List.map_append, List.nodup_append]
    refine ⟨m.nodup_keys, List.nodup_singleton k, ?_⟩
    rintro x hx y hy rfl
    have hxk : x = k := by simpa using hy
    exact h (hxk ▸ hx)⟩

variable [DecidableEq κ]

/-- The value under a key. -/
def get? (m : OrderedMap κ α) (k : κ) : Option α :=
  (m.entries.find? fun e => e.1 = k).map Prod.snd

/-- Rewrite the value under one key, if there is one. -/
def modify (m : OrderedMap κ α) (k : κ) (f : α → α) : OrderedMap κ α :=
  m.updateAll fun k' a => if k' = k then f a else a

/-- Store a value under a key: in place when the key is present, at the end when
it is not. -/
def set (m : OrderedMap κ α) (k : κ) (a : α) : OrderedMap κ α :=
  if h : k ∈ m.keys then m.modify k fun _ => a else m.push k a h

/-! ## What an operation does to one key -/

omit [DecidableEq κ] in
theorem mem_keys {m : OrderedMap κ α} {k : κ} : k ∈ m.keys ↔ ∃ a, (k, a) ∈ m.entries := by
  simp [keys]

theorem get?_eq_some {m : OrderedMap κ α} {k : κ} {a : α} :
    m.get? k = some a ↔ (k, a) ∈ m.entries := by
  constructor
  · intro h
    obtain ⟨e, he, rfl⟩ := Option.map_eq_some_iff.mp h
    have hk : e.1 = k := by simpa using List.find?_some he
    subst hk
    exact List.mem_of_find?_eq_some he
  · intro h
    cases hf : m.entries.find? (fun e => e.1 = k) with
    | none =>
      have := List.find?_eq_none.mp hf (k, a) h
      simp at this
    | some e =>
      have hk : e.1 = k := by simpa using List.find?_some hf
      have he : e = (k, a) :=
        List.inj_on_of_nodup_map m.nodup_keys (List.mem_of_find?_eq_some hf) h hk
      simp [get?, hf, he]

theorem mem_values {m : OrderedMap κ α} {a : α} : a ∈ m.values ↔ ∃ k, m.get? k = some a := by
  simp only [values, List.mem_map, get?_eq_some]
  constructor
  · intro h
    obtain ⟨e, he, ha⟩ := h
    exact ⟨e.1, by rwa [← ha]⟩
  · intro h
    obtain ⟨k, hk⟩ := h
    exact ⟨(k, a), hk, rfl⟩

theorem get?_eq_none {m : OrderedMap κ α} {k : κ} : m.get? k = none ↔ k ∉ m.keys := by
  rw [mem_keys]
  constructor
  · rintro h ⟨a, ha⟩
    rw [get?_eq_some.mpr ha] at h
    cases h
  · intro h
    cases hg : m.get? k with
    | none => rfl
    | some a => exact absurd ⟨a, get?_eq_some.mp hg⟩ h

@[simp] theorem get?_empty (k : κ) : (empty : OrderedMap κ α).get? k = none := rfl

@[simp] theorem get?_updateAll (f : κ → α → α) (m : OrderedMap κ α) (k : κ) :
    (m.updateAll f).get? k = (m.get? k).map (f k) := by
  cases hg : m.get? k with
  | some a =>
    rw [Option.map_some, get?_eq_some]
    exact List.mem_map.mpr ⟨(k, a), get?_eq_some.mp hg, rfl⟩
  | none =>
    rw [Option.map_none, get?_eq_none]
    rw [get?_eq_none] at hg
    simpa [keys, updateAll, List.map_map, Function.comp_def] using hg

theorem get?_modify (m : OrderedMap κ α) (k k' : κ) (f : α → α) :
    (m.modify k f).get? k' = if k' = k then (m.get? k').map f else m.get? k' := by
  rw [modify, get?_updateAll]
  by_cases h : k' = k
  · simp [h]
  · simp [h]

@[simp] theorem get?_modify_self (m : OrderedMap κ α) (k : κ) (f : α → α) :
    (m.modify k f).get? k = (m.get? k).map f := by rw [get?_modify, if_pos rfl]

/-- Two rewrites that do the same to the value that is there. -/
theorem modify_congr {m : OrderedMap κ α} {k : κ} {f g : α → α}
    (h : ∀ a, m.get? k = some a → f a = g a) : m.modify k f = m.modify k g := by
  have hentries : ∀ e ∈ m.entries, (e.1, if e.1 = k then f e.2 else e.2) =
      (e.1, if e.1 = k then g e.2 else e.2) := by
    intro e he
    by_cases hk : e.1 = k
    · rw [if_pos hk, if_pos hk, h e.2 (get?_eq_some.mpr (hk ▸ he))]
    · rw [if_neg hk, if_neg hk]
  unfold modify updateAll
  simp only [mk.injEq]
  exact List.map_congr_left hentries

omit [DecidableEq κ] in
theorem updateAll_eq_self {m : OrderedMap κ α} {f : κ → α → α}
    (h : ∀ k a, (k, a) ∈ m.entries → f k a = a) : m.updateAll f = m := by
  obtain ⟨entries, hnodup⟩ := m
  unfold updateAll
  simp only [mk.injEq]
  rw [List.map_congr_left fun e he => congrArg (Prod.mk e.1) (h e.1 e.2 he), List.map_id']

theorem modify_id (m : OrderedMap κ α) (k : κ) : m.modify k id = m := by
  unfold modify updateAll
  simp

theorem get?_push (m : OrderedMap κ α) (k k' : κ) (a : α) (h : k ∉ m.keys) :
    (m.push k a h).get? k' = if k' = k then some a else m.get? k' := by
  by_cases hk : k' = k
  · subst hk
    rw [if_pos rfl, get?_eq_some]
    exact List.mem_append_right _ (List.mem_singleton.mpr rfl)
  · rw [if_neg hk]
    cases hg : m.get? k' with
    | some b =>
      rw [get?_eq_some]
      exact List.mem_append_left _ (get?_eq_some.mp hg)
    | none =>
      rw [get?_eq_none] at hg ⊢
      simpa [keys, push, hk] using hg

theorem get?_push_of_some {m : OrderedMap κ α} {k k' : κ} {b : α} (hg : m.get? k' = some b)
    (a : α) (h : k ∉ m.keys) : (m.push k a h).get? k' = some b := by
  have hne : k' ≠ k := by
    rintro rfl
    rw [get?_eq_none.mpr h] at hg
    cases hg
  rw [get?_push, if_neg hne, hg]

theorem get?_set (m : OrderedMap κ α) (k k' : κ) (a : α) :
    (m.set k a).get? k' = if k' = k then some a else m.get? k' := by
  by_cases h : k ∈ m.keys
  · obtain ⟨b, hb⟩ := mem_keys.mp h
    rw [set, dif_pos h, get?_modify]
    by_cases hk : k' = k
    · simp [hk, get?_eq_some.mpr hb]
    · simp [hk]
  · rw [set, dif_neg h, get?_push]

theorem get?_filter (p : κ → α → Bool) (m : OrderedMap κ α) (k : κ) :
    (m.filter p).get? k = (m.get? k).filter (p k) := by
  cases hg : m.get? k with
  | some a =>
    cases hp : p k a with
    | true =>
      rw [Option.filter_some, hp, if_pos rfl, get?_eq_some]
      exact List.mem_filter.mpr ⟨get?_eq_some.mp hg, hp⟩
    | false =>
      have hnot : k ∉ (m.filter p).keys := by
        rw [mem_keys]
        rintro ⟨b, hb⟩
        obtain ⟨hmem, hpb⟩ := List.mem_filter.mp hb
        have hba : b = a := by simpa [hg] using (get?_eq_some.mpr hmem).symm
        simp [hba, hp] at hpb
      rw [Option.filter_some, hp, get?_eq_none.mpr hnot]
      rfl
  | none =>
    rw [Option.filter_none, get?_eq_none, mem_keys]
    rintro ⟨b, hb⟩
    rw [get?_eq_none, mem_keys] at hg
    exact hg ⟨b, (List.mem_filter.mp hb).1⟩

/-! ## Sums over the entries -/

/-- A sum over the elements that pass a test. -/
theorem sum_map_filter {M : Type*} [AddCommMonoid M] {β : Type*} (p : β → Bool) (f : β → M)
    (xs : List β) : ((xs.filter p).map f).sum = (xs.map fun x => if p x then f x else 0).sum := by
  induction xs with
  | nil => rfl
  | cons x xs ih =>
    by_cases h : p x
    · simp [h, ih]
    · simp [h, ih]

/-- A running total over the elements that pass a test. -/
theorem foldl_add_ite {M : Type*} [AddCommMonoid M] {β : Type*} (p : β → Prop) [DecidablePred p]
    (f : β → M) (xs : List β) (z : M) :
    xs.foldl (fun sum x => if p x then sum + f x else sum) z =
      z + (xs.map fun x => if p x then f x else 0).sum := by
  induction xs generalizing z with
  | nil => simp
  | cons x xs ih =>
    by_cases h : p x
    · simp [h, ih, add_assoc]
    · simp [h, ih]

section Total

variable {M : Type w}

/-- The sum of `f` over the entries. -/
def total [AddCommMonoid M] (f : κ → α → M) (m : OrderedMap κ α) : M :=
  (m.entries.map fun e => f e.1 e.2).sum

section AddCommMonoid

variable [AddCommMonoid M]

omit [DecidableEq κ] in
@[simp] theorem total_empty (f : κ → α → M) : (empty : OrderedMap κ α).total f = 0 := rfl

omit [DecidableEq κ] in
theorem total_congr {f g : κ → α → M} {m : OrderedMap κ α}
    (h : ∀ k a, (k, a) ∈ m.entries → f k a = g k a) : m.total f = m.total g := by
  rw [total, total, List.map_congr_left fun e he => h e.1 e.2 he]

omit [DecidableEq κ] in
@[simp] theorem total_zero (m : OrderedMap κ α) : m.total (fun _ _ => (0 : M)) = 0 := by
  simp [total]

omit [DecidableEq κ] in
theorem total_eq_zero {f : κ → α → M} {m : OrderedMap κ α}
    (h : ∀ k a, (k, a) ∈ m.entries → f k a = 0) : m.total f = 0 :=
  (total_congr h).trans m.total_zero

omit [DecidableEq κ] in
theorem total_add (f g : κ → α → M) (m : OrderedMap κ α) :
    (m.total fun k a => f k a + g k a) = m.total f + m.total g :=
  List.sum_map_add

omit [DecidableEq κ] in
theorem total_le_total [PartialOrder M] [IsOrderedAddMonoid M] {f g : κ → α → M}
    {m : OrderedMap κ α} (h : ∀ k a, (k, a) ∈ m.entries → f k a ≤ g k a) : m.total f ≤ m.total g :=
  List.sum_le_sum fun e he => h e.1 e.2 he

omit [DecidableEq κ] in
theorem total_sum {δ : Type*} (D : Finset δ) (f : δ → κ → α → M) (m : OrderedMap κ α) :
    (m.total fun k a => ∑ d ∈ D, f d k a) = ∑ d ∈ D, m.total (f d) := by
  classical
  induction D using Finset.induction_on with
  | empty => simp
  | insert d D hd ih =>
    rw [Finset.sum_insert hd, ← ih, ← total_add]
    apply total_congr
    intro k a _
    exact Finset.sum_insert hd

omit [DecidableEq κ] in
theorem total_updateAll (f : κ → α → M) (g : κ → α → α) (m : OrderedMap κ α) :
    (m.updateAll g).total f = m.total fun k a => f k (g k a) := by
  simp [total, updateAll, Function.comp_def]

omit [DecidableEq κ] in
@[simp] theorem total_push (f : κ → α → M) (m : OrderedMap κ α) (k : κ) (a : α)
    (h : k ∉ m.keys) : (m.push k a h).total f = m.total f + f k a := by
  simp [total, push]

/-- A sum whose terms live on one key is the term at that key. -/
theorem total_single (f : α → M) (m : OrderedMap κ α) (k : κ) :
    (m.total fun k' a => if k' = k then f a else 0) = (m.get? k).elim 0 f := by
  obtain ⟨entries, hnodup⟩ := m
  simp only [total, get?]
  induction entries with
  | nil => rfl
  | cons e es ih =>
    have htail : (es.map Prod.fst).Nodup := (List.nodup_cons.mp hnodup).2
    rw [List.map_cons, List.sum_cons, ih htail]
    by_cases h : e.1 = k
    · have hfree : es.find? (fun e => e.1 = k) = none := by
        rw [List.find?_eq_none]
        intro x hx
        have : e.1 ∉ es.map Prod.fst := (List.nodup_cons.mp hnodup).1
        have hne : x.1 ≠ k := fun hxk => this (List.mem_map.mpr ⟨x, hx, hxk.trans h.symm⟩)
        simpa using hne
      simp [h, hfree]
    · simp [h]

/-- A sum whose terms live on some keys. -/
theorem total_of_keys (f : α → M) (m : OrderedMap κ α) {ks : List κ} (hks : ks.Nodup) :
    (m.total fun k a => if k ∈ ks then f a else 0) =
      (ks.map fun k => (m.get? k).elim 0 f).sum := by
  induction ks with
  | nil => exact total_eq_zero fun k a _ => if_neg List.not_mem_nil
  | cons k ks ih =>
    rw [List.nodup_cons] at hks
    rw [List.map_cons, List.sum_cons, ← ih hks.2, ← total_single, ← total_add]
    apply total_congr
    intro k' a _
    by_cases h : k' = k
    · rw [if_pos (List.mem_cons.mpr (.inl h)), if_pos h, if_neg (h ▸ hks.1), add_zero]
    · have hiff : k' ∈ k :: ks ↔ k' ∈ ks := by simp [h]
      simp only [hiff, if_neg h, zero_add]

end AddCommMonoid

section AddCommGroup

variable [AddCommGroup M]

/-- Rewriting one value moves a sum by the difference at that key. -/
theorem total_modify (f : κ → α → M) (m : OrderedMap κ α) (k : κ) (g : α → α) :
    (m.modify k g).total f = m.total f + (m.get? k).elim 0 fun a => f k (g a) - f k a := by
  rw [modify, total_updateAll, ← total_single, ← total_add]
  refine total_congr fun k' a _ => ?_
  by_cases h : k' = k
  · subst h
    simp
  · simp [h]

theorem total_modify_of_some {m : OrderedMap κ α} {k : κ} {a : α} (h : m.get? k = some a)
    (f : κ → α → M) (g : α → α) :
    (m.modify k g).total f = m.total f + (f k (g a) - f k a) := by
  rw [total_modify, h, Option.elim_some]

/-- A sum that does not see the change stays. -/
theorem total_modify_of_eq {f : κ → α → M} {k : κ} {g : α → α} (h : ∀ a, f k (g a) = f k a)
    (m : OrderedMap κ α) : (m.modify k g).total f = m.total f := by
  rw [total_modify]
  cases m.get? k with
  | some a => rw [Option.elim_some, h, sub_self, add_zero]
  | none => rw [Option.elim_none, add_zero]

theorem total_set (f : κ → α → M) (m : OrderedMap κ α) (k : κ) (a : α) :
    (m.set k a).total f = m.total f + (f k a - (m.get? k).elim 0 (f k)) := by
  by_cases h : k ∈ m.keys
  · obtain ⟨b, hb⟩ := mem_keys.mp h
    have hget : m.get? k = some b := get?_eq_some.mpr hb
    rw [set, dif_pos h, total_modify_of_some hget, hget, Option.elim_some]
  · rw [set, dif_neg h, total_push, get?_eq_none.mpr h, Option.elim_none, sub_zero]

end AddCommGroup

end Total

/-! ## Accumulation

`accumulate key op` folds a list into a map: each element updates the value under
its key with `op`.  A loop that runs over a list and does
`map.set(k, op(map.get(k), x))` is this fold. -/

section Accumulate

variable {β : Type w}

/-- Fold a list into a map, each element into the value under its key. -/
def accumulate (key : β → κ) (op : Option α → β → α) (m : OrderedMap κ α) (xs : List β) :
    OrderedMap κ α :=
  xs.foldl (fun m x => m.set (key x) (op (m.get? (key x)) x)) m

variable {key : β → κ} {op : Option α → β → α}

@[simp] theorem accumulate_nil (m : OrderedMap κ α) : m.accumulate key op [] = m := rfl

@[simp] theorem accumulate_cons (m : OrderedMap κ α) (x : β) (xs : List β) :
    m.accumulate key op (x :: xs) =
      (m.set (key x) (op (m.get? (key x)) x)).accumulate key op xs := rfl

theorem mem_keys_set {m : OrderedMap κ α} {k k' : κ} {a : α} :
    k' ∈ (m.set k a).keys ↔ k' ∈ m.keys ∨ k' = k := by
  by_cases hk : k' = k
  · subst hk
    have hget := get?_set m k' k' a
    rw [if_pos rfl] at hget
    simp only [or_true, iff_true]
    exact mem_keys.mpr ⟨a, get?_eq_some.mp hget⟩
  · have hget := get?_set m k k' a
    rw [if_neg hk] at hget
    have hnone : k' ∉ (m.set k a).keys ↔ k' ∉ m.keys := by
      rw [← get?_eq_none, ← get?_eq_none, hget]
    simpa [hk] using not_iff_not.mp hnone

/-- The keys after accumulation are those of the map and those of the list. -/
theorem mem_keys_accumulate {m : OrderedMap κ α} {xs : List β} {k : κ} :
    k ∈ (m.accumulate key op xs).keys ↔ k ∈ m.keys ∨ ∃ x ∈ xs, key x = k := by
  induction xs generalizing m with
  | nil => simp
  | cons x xs ih =>
    rw [accumulate_cons, ih, mem_keys_set]
    constructor
    · rintro ((h | rfl) | ⟨y, hy, h⟩)
      · exact .inl h
      · exact .inr ⟨x, List.mem_cons_self .., rfl⟩
      · exact .inr ⟨y, List.mem_cons_of_mem x hy, h⟩
    · rintro (h | ⟨y, hy, h⟩)
      · exact .inl (.inl h)
      · rcases List.mem_cons.mp hy with rfl | hy
        · exact .inl (.inr h.symm)
        · exact .inr ⟨y, hy, h⟩

/-- A property of values that `op` produces holds of every accumulated value. -/
theorem get?_accumulate_induction (good : κ → α → Prop) {xs : List β}
    (hop : ∀ x ∈ xs, ∀ o, (∀ a ∈ o, good (key x) a) → good (key x) (op o x))
    {m : OrderedMap κ α} (hm : ∀ k a, m.get? k = some a → good k a) {k : κ} {a : α}
    (h : (m.accumulate key op xs).get? k = some a) : good k a := by
  induction xs generalizing m with
  | nil => exact hm k a h
  | cons x xs ih =>
    refine ih (fun y hy => hop y (List.mem_cons_of_mem x hy)) (fun k' a' h' => ?_) h
    rw [get?_set] at h'
    by_cases hk : k' = key x
    · rw [if_pos hk] at h'
      obtain rfl := Option.some.inj h'
      rw [hk]
      exact hop x (List.mem_cons_self ..) _ fun b hb => hm _ b hb
    · rw [if_neg hk] at h'
      exact hm k' a' h'

/-- If each update moves a quantity `f` of the value by the weight of the element,
accumulation moves the sum of `f` by the sum of the weights. -/
theorem total_accumulate {M : Type*} [AddCommGroup M] {f : κ → α → M} (weight : β → M)
    (good : κ → α → Prop) {xs : List β}
    (hgood : ∀ x ∈ xs, ∀ o, (∀ a ∈ o, good (key x) a) → good (key x) (op o x))
    (hop : ∀ x ∈ xs, ∀ o, (∀ a ∈ o, good (key x) a) →
      f (key x) (op o x) = o.elim 0 (f (key x)) + weight x)
    {m : OrderedMap κ α} (hm : ∀ k a, m.get? k = some a → good k a) :
    (m.accumulate key op xs).total f = m.total f + (xs.map weight).sum := by
  induction xs generalizing m with
  | nil => simp
  | cons x xs ih =>
    have hx := hop x (List.mem_cons_self ..) (m.get? (key x)) fun a ha => hm _ a ha
    have hnext : ∀ k a, (m.set (key x) (op (m.get? (key x)) x)).get? k = some a → good k a := by
      intro k a h
      rw [get?_set] at h
      by_cases hk : k = key x
      · rw [if_pos hk] at h
        obtain rfl := Option.some.inj h
        rw [hk]
        exact hgood x (List.mem_cons_self ..) _ fun b hb => hm _ b hb
      · rw [if_neg hk] at h
        exact hm k a h
    rw [accumulate_cons, ih (fun y hy => hgood y (List.mem_cons_of_mem x hy))
      (fun y hy => hop y (List.mem_cons_of_mem x hy)) hnext, total_set, hx, List.map_cons,
      List.sum_cons]
    abel

omit [DecidableEq κ] in
/-- Two maps with the same keys: a sum over the one can be read off the other. -/
theorem sum_keys_congr {M : Type*} [AddCommMonoid M] {γ : Type*} (f : κ → M)
    {m : OrderedMap κ α} {n : OrderedMap κ γ} (h : ∀ k, k ∈ m.keys ↔ k ∈ n.keys) :
    (m.keys.map f).sum = (n.keys.map f).sum :=
  (((List.perm_ext_iff_of_nodup m.nodup_keys n.nodup_keys).mpr h).map f).sum_eq

/-- A sum over the entries as a sum over the keys. -/
theorem total_eq_sum_keys {M : Type*} [AddCommMonoid M] (f : κ → α → M) (m : OrderedMap κ α) :
    m.total f = (m.keys.map fun k => (m.get? k).elim 0 (f k)).sum := by
  rw [total, keys, List.map_map]
  congr 1
  refine List.map_congr_left fun e he => ?_
  rw [Function.comp_apply, get?_eq_some.mpr he, Option.elim_some]

end Accumulate

/-! ## Fresh keys -/

section Fresh

variable {β : Type v}

/-- A natural number above every key. -/
def nextKey (m : OrderedMap ℕ β) : ℕ := m.keys.foldr max 0 + 1

theorem lt_nextKey {m : OrderedMap ℕ β} {k : ℕ} (h : k ∈ m.keys) : k < m.nextKey := by
  have hle : ∀ l : List ℕ, ∀ k ∈ l, k ≤ l.foldr max 0 := by
    intro l
    induction l with
    | nil => simp
    | cons x xs ih =>
      intro k hk
      rcases List.mem_cons.mp hk with rfl | hk
      · exact Nat.le_max_left _ _
      · exact Nat.le_trans (ih k hk) (Nat.le_max_right _ _)
  have hmax := hle _ _ h
  rw [nextKey]
  omega

theorem nextKey_not_mem (m : OrderedMap ℕ β) : m.nextKey ∉ m.keys :=
  fun h => lt_irrefl _ (lt_nextKey h)

/-- Append a value under a key of the map's own choosing. -/
def create (m : OrderedMap ℕ β) (b : β) : OrderedMap ℕ β :=
  m.push m.nextKey b m.nextKey_not_mem

theorem get?_create (m : OrderedMap ℕ β) (b : β) (k : ℕ) :
    (m.create b).get? k = if k = m.nextKey then some b else m.get? k :=
  get?_push m m.nextKey k b m.nextKey_not_mem

theorem get?_create_of_some {m : OrderedMap ℕ β} {k : ℕ} {a : β} (h : m.get? k = some a)
    (b : β) : (m.create b).get? k = some a :=
  get?_push_of_some h b m.nextKey_not_mem

@[simp] theorem get?_nextKey (m : OrderedMap ℕ β) : m.get? m.nextKey = none :=
  get?_eq_none.mpr m.nextKey_not_mem

@[simp] theorem values_create (m : OrderedMap ℕ β) (b : β) :
    (m.create b).values = m.values ++ [b] := List.map_append

@[simp] theorem total_create {M : Type w} [AddCommMonoid M] (f : ℕ → β → M)
    (m : OrderedMap ℕ β) (b : β) : (m.create b).total f = m.total f + f m.nextKey b :=
  total_push f m m.nextKey b m.nextKey_not_mem

end Fresh

end OrderedMap
end NexusEfos
