/-
Rules for handlers that run among others.

A result watches some of the tables.  A statement that leaves them alone is
`Quiet`, and a protocol that `Watches` the tables allows every quiet statement.
With the rules of this file a proof that a handler follows a protocol goes
through the code of the handler in its order and stops only at the statements
that matter.
-/
import NexusEfos.Library.Interleaving
import NexusEfos.Ledger.Posting

namespace NexusEfos

/-- The watched tables are the same in both states. -/
def Db.Agree (watched : List Model) (s s' : Db) : Prop :=
  ∀ m ∈ watched, s'.table m = s.table m

namespace Db.Agree

variable {watched : List Model} {s s' s'' : Db} {m : Model}

theorem refl (s : Db) : s.Agree watched s := fun _ _ => rfl

theorem trans (h : s.Agree watched s') (h' : s'.Agree watched s'') : s.Agree watched s'' :=
  fun m hm => (h' m hm).trans (h m hm)

theorem symm (h : s.Agree watched s') : s'.Agree watched s := fun m hm => (h m hm).symm

theorem mono {fewer : List Model} (h : s.Agree watched s') (hsub : ∀ m ∈ fewer, m ∈ watched) :
    s.Agree fewer s' := fun m hm => h m (hsub m hm)

theorem find? (h : s.Agree watched s') (hm : m ∈ watched) (id : Id) :
    s'.find? m id = s.find? m id := by
  unfold Db.find?
  rw [h m hm]

theorem setTable (hm : m ∉ watched) (s : Db) (t : OrderedMap Id (Row m)) :
    s.Agree watched (s.setTable m t) := by
  intro m' hm'
  have hne : m' ≠ m := by
    intro heq
    exact hm (heq ▸ hm')
  exact table_setTable_of_ne hne s t

theorem insert (hm : m ∉ watched) (s : Db) (row : Row m) : s.Agree watched (s.insert m row) :=
  setTable hm s _

theorem modify (hm : m ∉ watched) (s : Db) (id : Id) (f : Row m → Row m) :
    s.Agree watched (s.modify m id f) := setTable hm s _

theorem modifyAll (hm : m ∉ watched) (s : Db) (f : Id → Row m → Row m) :
    s.Agree watched (s.modifyAll m f) := setTable hm s _

theorem setTable_congr (h : s.Agree watched s') {t : OrderedMap Id (Row m) → OrderedMap Id (Row m)} :
    (s.setTable m (t (s.table m))).Agree watched (s'.setTable m (t (s'.table m))) := by
  intro m' hm'
  by_cases hne : m' = m
  · subst hne
    rw [table_setTable_self, table_setTable_self, h m' hm']
  · rw [table_setTable_of_ne hne, table_setTable_of_ne hne, h m' hm']

/-- The same write keeps the agreement. -/
theorem modify_congr (h : s.Agree watched s') (id : Id) (f : Row m → Row m) :
    (s.modify m id f).Agree watched (s'.modify m id f) :=
  h.setTable_congr (t := fun t => t.modify id f)

theorem insert_congr (h : s.Agree watched s') (row : Row m) :
    (s.insert m row).Agree watched (s'.insert m row) :=
  h.setTable_congr (t := fun t => t.create row)

theorem applyEffects_congr (h : s.Agree watched s') (lines : List JournalLineInput) :
    (s.applyEffects lines).Agree watched (s'.applyEffects lines) := by
  induction lines generalizing s s' with
  | nil => exact h
  | cons l ls ih => exact ih (h.modify_congr l.accountId _)

end Db.Agree

/-- A row is created: the next key is taken afterwards. -/
def Db.Creates (m : Model) (s t : Db) : Prop := (t.find? m (s.nextId m)).isSome = true

instance (m : Model) (s t : Db) : Decidable (Db.Creates m s t) :=
  inferInstanceAs (Decidable (_ = true))

theorem Db.not_creates {m : Model} {s t : Db} (h : t.table m = s.table m) : ¬ Creates m s t := by
  have hnone : s.find? m (s.nextId m) = none := OrderedMap.get?_nextKey _
  unfold Creates
  rw [find?, h, ← find?, hnone]
  simp

theorem Db.creates_insert {m : Model} {s t : Db} {row : Row m}
    (h : t.table m = (s.insert m row).table m) : Creates m s t := by
  unfold Creates
  rw [find?, h, ← find?, find?_insert, if_pos rfl]
  rfl

/-! ## Handlers that write some tables -/

/-- A relation of states that allows every write to some of the tables. -/
structure Db.Permits (R : Db → Db → Prop) (ms : List Model) : Prop where
  refl : ∀ s, R s s
  trans : ∀ {s t u}, R s t → R t u → R s u
  insert : ∀ m ∈ ms, ∀ s (row : Row m), R s (s.insert m row)
  modify : ∀ m ∈ ms, ∀ s id (f : Row m → Row m), R s (s.modify m id f)
  modifyAll : ∀ m ∈ ms, ∀ s (f : Id → Row m → Row m), R s (s.modifyAll m f)

theorem Db.Permits.mono {R : Db → Db → Prop} {ms fewer : List Model} (h : Permits R ms)
    (hsub : ∀ m ∈ fewer, m ∈ ms) : Permits R fewer where
  refl := h.refl
  trans := h.trans
  insert := fun m hm => h.insert m (hsub m hm)
  modify := fun m hm => h.modify m (hsub m hm)
  modifyAll := fun m hm => h.modifyAll m (hsub m hm)

/-- Leaving the watched tables alone allows every write to other tables. -/
theorem Db.permits_agree {ms watched : List Model} (hms : ∀ m ∈ ms, m ∉ watched) :
    Permits (Agree watched) ms where
  refl := Agree.refl
  trans := Agree.trans
  insert := fun m hm s row => Agree.insert (hms m hm) s row
  modify := fun m hm s id f => Agree.modify (hms m hm) s id f
  modifyAll := fun m hm s f => Agree.modifyAll (hms m hm) s f

/-- The rows of a table are still there, each related to what it was. -/
def Db.KeepsRows (m : Model) (R : Row m → Row m → Prop) (s t : Db) : Prop :=
  ∀ id row, s.find? m id = some row → ∃ row', t.find? m id = some row' ∧ R row row'

namespace Db.KeepsRows

variable {m : Model} {R : Row m → Row m → Prop} {s t u : Db}

theorem of_table_eq (hrefl : ∀ row, R row row) (h : t.table m = s.table m) :
    s.KeepsRows m R t := by
  intro id row hrow
  refine ⟨row, ?_, hrefl row⟩
  rw [Db.find?, h]
  exact hrow

theorem trans (hR : ∀ a b c, R a b → R b c → R a c) (h : s.KeepsRows m R t)
    (h' : t.KeepsRows m R u) : s.KeepsRows m R u := by
  intro id row hrow
  obtain ⟨row', hrow', hfirst⟩ := h id row hrow
  obtain ⟨row'', hrow'', hsecond⟩ := h' id row' hrow'
  exact ⟨row'', hrow'', hR _ _ _ hfirst hsecond⟩

/-- A new row is no other row. -/
theorem insert (hrefl : ∀ row, R row row) (s : Db) (new : Row m) :
    s.KeepsRows m R (s.insert m new) := by
  intro id row hrow
  have hid : id ≠ s.nextId m := by
    intro heq
    have hnone : s.find? m (s.nextId m) = none := OrderedMap.get?_nextKey _
    rw [heq, hnone] at hrow
    exact absurd hrow nofun
  refine ⟨row, ?_, hrefl row⟩
  rw [Db.find?_insert, if_neg hid]
  exact hrow

theorem modify (hrefl : ∀ row, R row row) (s : Db) (id : Id) {f : Row m → Row m}
    (hf : ∀ row, R row (f row)) : s.KeepsRows m R (s.modify m id f) := by
  intro id' row hrow
  rw [Db.find?_modify, hrow]
  by_cases hid : id' = id
  · rw [if_pos hid]
    exact ⟨f row, rfl, hf row⟩
  · rw [if_neg hid]
    exact ⟨row, rfl, hrefl row⟩

theorem modifyAll (s : Db) {f : Id → Row m → Row m} (hf : ∀ id row, R row (f id row)) :
    s.KeepsRows m R (s.modifyAll m f) := by
  intro id row hrow
  refine ⟨f id row, ?_, hf id row⟩
  rw [Db.find?_modifyAll, hrow]
  rfl

end Db.KeepsRows

/-- Writes to other tables keep the rows. -/
theorem Db.permits_keepsRows {m : Model} {R : Row m → Row m → Prop} (hrefl : ∀ row, R row row)
    (hR : ∀ a b c, R a b → R b c → R a c) {ms : List Model} (hm : m ∉ ms) :
    Permits (KeepsRows m R) ms where
  refl := fun _ => .of_table_eq hrefl rfl
  trans := KeepsRows.trans hR
  insert := fun _ hm' s row =>
    .of_table_eq hrefl (table_insert_of_ne (ne_of_mem_of_not_mem hm' hm).symm s row)
  modify := fun _ hm' s id f =>
    .of_table_eq hrefl (table_modify_of_ne (ne_of_mem_of_not_mem hm' hm).symm s id f)
  modifyAll := fun _ hm' s f =>
    .of_table_eq hrefl (table_modifyAll_of_ne (ne_of_mem_of_not_mem hm' hm).symm s f)

/-- No write of the program takes a row away. -/
theorem Db.permits_persist (m : Model) (ms : List Model) :
    Permits (KeepsRows m fun _ _ => True) ms where
  refl := fun _ => .of_table_eq (fun _ => trivial) rfl
  trans := KeepsRows.trans fun _ _ _ _ _ => trivial
  insert := fun m' _ s row => by
    by_cases heq : m = m'
    · subst heq
      exact .insert (fun _ => trivial) s row
    · exact .of_table_eq (fun _ => trivial) (table_insert_of_ne heq s row)
  modify := fun m' _ s id f => by
    by_cases heq : m = m'
    · subst heq
      exact .modify (fun _ => trivial) s id fun _ => trivial
    · exact .of_table_eq (fun _ => trivial) (table_modify_of_ne heq s id f)
  modifyAll := fun m' _ s f => by
    by_cases heq : m = m'
    · subst heq
      exact .modifyAll s fun _ _ => trivial
    · exact .of_table_eq (fun _ => trivial) (table_modifyAll_of_ne heq s f)

/-- Two relations. -/
theorem Db.Permits.and {R R' : Db → Db → Prop} {ms : List Model} (h : Permits R ms)
    (h' : Permits R' ms) : Permits (fun s t => R s t ∧ R' s t) ms where
  refl := fun s => ⟨h.refl s, h'.refl s⟩
  trans := fun hst htu => ⟨h.trans hst.1 htu.1, h'.trans hst.2 htu.2⟩
  insert := fun m hm s row => ⟨h.insert m hm s row, h'.insert m hm s row⟩
  modify := fun m hm s id f => ⟨h.modify m hm s id f, h'.modify m hm s id f⟩
  modifyAll := fun m hm s f => ⟨h.modifyAll m hm s f, h'.modifyAll m hm s f⟩

/-- No statement does more than write to some of the tables. -/
structure Writes {α : Type} (ms : List Model) (p : Handler α) : Prop where
  every : ∀ R, Db.Permits R ms → p.Every R

namespace Writes

variable {α β : Type} {ms : List Model} {m : Model}

theorem bind {p : Handler α} {f : α → Handler β} (hp : Writes ms p) (hf : ∀ a, Writes ms (f a)) :
    Writes ms (p >>= f) :=
  ⟨fun R hR => Proc.Every.bind (hp.every R hR) fun a => (hf a).every R hR⟩

theorem mono {more : List Model} {p : Handler α} (hp : Writes ms p) (hsub : ∀ m ∈ ms, m ∈ more) :
    Writes more p := ⟨fun R hR => hp.every R (hR.mono hsub)⟩

theorem pure (a : α) : Writes ms (Pure.pure a : Handler α) := ⟨fun _ _ => trivial⟩

theorem fail (e : Failure) : Writes ms (Proc.fail e : Handler α) := ⟨fun _ _ => trivial⟩

theorem require (p : Prop) [Decidable p] (e : Failure) :
    Writes ms (Proc.require p e : Handler Unit) := ⟨fun _ _ => Proc.Every.require p e⟩

theorem orFail (o : Option α) (e : Failure) : Writes ms (Proc.orFail o e : Handler α) :=
  ⟨fun _ _ => Proc.Every.orFail o e⟩

theorem query (f : Db → α) : Writes ms (NexusEfos.query f) :=
  ⟨fun _ hR => ⟨fun s => hR.refl s, fun _ => trivial⟩⟩

theorem findUniqueOrThrow (m : Model) (id : Id) : Writes ms (NexusEfos.findUniqueOrThrow m id) := by
  constructor
  intro R hR
  refine ⟨fun s => ?_, fun _ => trivial⟩
  cases h : s.find? m id with
  | some row => simpa only [h] using hR.refl s
  | none => simpa only [h] using hR.refl s

theorem createAs (hm : m ∈ ms) (lab : Access) (row : Row m) :
    Writes ms (NexusEfos.createAs lab m row) :=
  ⟨fun _ hR => ⟨fun s => hR.insert m hm s row, fun _ => trivial⟩⟩

theorem create (hm : m ∈ ms) (row : Row m) : Writes ms (NexusEfos.create m row) :=
  createAs hm {} row

theorem updateAs (hm : m ∈ ms) (lab : Access) (id : Id) (data : Row m → Row m) :
    Writes ms (NexusEfos.updateAs lab m id data) := by
  constructor
  intro R hR
  refine ⟨fun s => ?_, fun _ => trivial⟩
  cases h : s.find? m id with
  | some row => simpa only [h] using hR.modify m hm s id data
  | none => simpa only [h] using hR.refl s

theorem update (hm : m ∈ ms) (id : Id) (data : Row m → Row m) :
    Writes ms (NexusEfos.update m id data) := updateAs hm {} id data

theorem updateMany (hm : m ∈ ms) (p : Id → Row m → Bool) (data : Row m → Row m) :
    Writes ms (NexusEfos.updateMany m p data) :=
  ⟨fun _ hR => ⟨fun s => hR.modifyAll m hm s _, fun _ => trivial⟩⟩

theorem updateGuarded (hm : m ∈ ms) (id : Id) (p : Row m → Bool) (data : Row m → Row m) :
    Writes ms (NexusEfos.updateGuarded m id p data) := by
  constructor
  intro R hR
  refine ⟨fun s => ?_, fun _ => trivial⟩
  cases h : s.find? m id with
  | some row =>
    by_cases hp : p row = true
    · simpa only [h, hp, if_true] using hR.modify m hm s id data
    · simpa only [h, hp, Bool.false_eq_true, if_false] using hR.refl s
  | none => simpa only [h] using hR.refl s

theorem transaction (lab : Access) {p : Handler α} (hp : Writes ms p) :
    Writes ms (Proc.transaction lab p) :=
  ⟨fun R hR => Proc.Every.transaction hR.refl hR.trans lab (hp.every R hR)⟩

theorem forEach {γ : Type} {xs : List γ} {body : γ → Handler Unit}
    (h : ∀ x ∈ xs, Writes ms (body x)) : Writes ms (Proc.forEach xs body) :=
  ⟨fun R hR => Proc.Every.forEach fun x hx => (h x hx).every R hR⟩

theorem mapEach {γ : Type} {xs : List γ} {body : γ → Handler α}
    (h : ∀ x ∈ xs, Writes ms (body x)) : Writes ms (Proc.mapEach xs body) :=
  ⟨fun R hR => Proc.Every.mapEach fun x hx => (h x hx).every R hR⟩

theorem ite {p : Prop} [Decidable p] {h₁ h₂ : Handler α} (hpos : Writes ms h₁)
    (hneg : Writes ms h₂) : Writes ms (if p then h₁ else h₂) := by
  by_cases hp : p
  · rw [if_pos hp]
    exact hpos
  · rw [if_neg hp]
    exact hneg

/-- The common last statement of an effect. -/
theorem update_end (hm : m ∈ ms) (id : Id) (data : Row m → Row m) :
    Writes ms (do let _ ← NexusEfos.update m id data) :=
  (update hm id data).bind fun _ => pure ()

theorem requirePostablePeriod (institutionId : Id) (date : DateTime) :
    Writes ms (NexusEfos.requirePostablePeriod institutionId date) := by
  refine (query _).bind fun period => ?_
  cases period with
  | some p => exact require _ _
  | none => exact fail _

theorem createJournalAs (hm : Model.journal ∈ ms) (lab : Access) (journal : Journal) :
    Writes ms (NexusEfos.createJournalAs lab journal) := by
  constructor
  intro R hR
  refine ⟨fun s => ?_, fun _ => trivial⟩
  by_cases hlines : ∀ l ∈ journal.lines, (s.find? .gLAccount l.accountId).isSome
  · simpa only [if_pos hlines] using hR.insert _ hm s journal
  · simpa only [if_neg hlines] using hR.refl s

theorem applyLines (hm : Model.gLAccount ∈ ms) (lines : List JournalLineInput) :
    Writes ms (NexusEfos.applyLines lines) := forEach fun _ _ => update_end hm _ _

theorem applyLinesById (hm : Model.gLAccount ∈ ms) (accountById : Id → Option GLAccount)
    (lines : List LineInput) : Writes ms (NexusEfos.applyLinesById accountById lines) :=
  forEach fun _ _ => (orFail _ _).bind fun _ => update_end hm _ _

theorem postJournal (hj : Model.journal ∈ ms) (hg : Model.gLAccount ∈ ms) (auth : Auth)
    (now : DateTime) (description : String) (lines : List JournalLineInput) :
    Writes ms (NexusEfos.postJournal auth now description lines) :=
  (createJournalAs hj {} _).bind fun _ => (applyLines hg lines).bind fun _ => pure _

end Writes

/-- Code that writes nothing leaves the state alone. -/
theorem Writes.run_eq {α : Type} {p : Handler α} (hp : Writes [] p) {s t : Db}
    {r : Except Failure α} (h : p.run s = (r, t)) : t = s := by
  have hpermits : Db.Permits Eq [] :=
    ⟨Eq.refl, Eq.trans, fun _ hm => absurd hm List.not_mem_nil,
      fun _ hm => absurd hm List.not_mem_nil, fun _ hm => absurd hm List.not_mem_nil⟩
  have hsame := (hp.every _ hpermits).run Eq.refl Eq.trans s
  rw [h] at hsame
  exact hsame.symm

/-! ## Quiet handlers -/

/-- No statement touches a watched table. -/
def Quiet {α : Type} (watched : List Model) (p : Handler α) : Prop :=
  p.Every (Db.Agree watched)

theorem Writes.quiet {α : Type} {ms watched : List Model} {p : Handler α} (hp : Writes ms p)
    (hms : ∀ m ∈ ms, m ∉ watched) : Quiet watched p := hp.every _ (Db.permits_agree hms)

namespace Quiet

variable {α β : Type} {watched : List Model} {m : Model}

theorem bind {p : Handler α} {f : α → Handler β} (hp : Quiet watched p)
    (hf : ∀ a, Quiet watched (f a)) : Quiet watched (p >>= f) := Proc.Every.bind hp hf

theorem pure (a : α) : Quiet watched (Pure.pure a : Handler α) := trivial

theorem fail (e : Failure) : Quiet watched (Proc.fail e : Handler α) := trivial

theorem require (p : Prop) [Decidable p] (e : Failure) :
    Quiet watched (Proc.require p e : Handler Unit) := Proc.Every.require p e

theorem orFail (o : Option α) (e : Failure) : Quiet watched (Proc.orFail o e : Handler α) :=
  Proc.Every.orFail o e

theorem query (f : Db → α) : Quiet watched (NexusEfos.query f) :=
  ⟨fun s => Db.Agree.refl s, fun _ => trivial⟩

/-- A table that is not watched may be written. -/
theorem permits (hm : m ∉ watched) : Db.Permits (Db.Agree watched) [m] :=
  Db.permits_agree fun _ hmem => List.mem_singleton.mp hmem ▸ hm

theorem findUniqueOrThrow (m : Model) (id : Id) :
    Quiet watched (NexusEfos.findUniqueOrThrow m id) :=
  (Writes.findUniqueOrThrow m id : Writes [] _).quiet fun _ hmem => absurd hmem List.not_mem_nil

theorem createAs (hm : m ∉ watched) (lab : Access) (row : Row m) :
    Quiet watched (NexusEfos.createAs lab m row) :=
  (Writes.createAs (List.mem_singleton_self m) lab row).every _ (permits hm)

theorem create (hm : m ∉ watched) (row : Row m) : Quiet watched (NexusEfos.create m row) :=
  createAs hm {} row

theorem updateAs (hm : m ∉ watched) (lab : Access) (id : Id) (data : Row m → Row m) :
    Quiet watched (NexusEfos.updateAs lab m id data) :=
  (Writes.updateAs (List.mem_singleton_self m) lab id data).every _ (permits hm)

theorem update (hm : m ∉ watched) (id : Id) (data : Row m → Row m) :
    Quiet watched (NexusEfos.update m id data) := updateAs hm {} id data

theorem updateMany (hm : m ∉ watched) (p : Id → Row m → Bool) (data : Row m → Row m) :
    Quiet watched (NexusEfos.updateMany m p data) :=
  (Writes.updateMany (List.mem_singleton_self m) p data).every _ (permits hm)

theorem updateGuarded (hm : m ∉ watched) (id : Id) (p : Row m → Bool) (data : Row m → Row m) :
    Quiet watched (NexusEfos.updateGuarded m id p data) :=
  (Writes.updateGuarded (List.mem_singleton_self m) id p data).every _ (permits hm)

theorem transaction (lab : Access) {p : Handler α} (hp : Quiet watched p) :
    Quiet watched (Proc.transaction lab p) :=
  Proc.Every.transaction Db.Agree.refl Db.Agree.trans lab hp

theorem forEach {γ : Type} {xs : List γ} {body : γ → Handler Unit}
    (h : ∀ x ∈ xs, Quiet watched (body x)) : Quiet watched (Proc.forEach xs body) :=
  Proc.Every.forEach h

theorem ite {p : Prop} [Decidable p] {h₁ h₂ : Handler α} (hpos : Quiet watched h₁)
    (hneg : Quiet watched h₂) : Quiet watched (if p then h₁ else h₂) := by
  by_cases hp : p
  · rw [if_pos hp]
    exact hpos
  · rw [if_neg hp]
    exact hneg

/-- The common last statement of an effect. -/
theorem update_end {m : Model} (hm : m ∉ watched) (id : Id) (data : Row m → Row m) :
    Quiet watched (do let _ ← NexusEfos.update m id data) :=
  (update hm id data).bind fun _ => pure ()

/-- The watched tables after an execution. -/
theorem run {p : Handler α} (hp : Quiet watched p) (s : Db) : s.Agree watched (p.run s).2 :=
  Proc.Every.run Db.Agree.refl Db.Agree.trans hp s

theorem requirePostablePeriod (institutionId : Id) (date : DateTime) :
    Quiet watched (NexusEfos.requirePostablePeriod institutionId date) :=
  (Writes.requirePostablePeriod institutionId date : Writes [] _).quiet fun _ hmem =>
    absurd hmem List.not_mem_nil

end Quiet

/-! ## How a handler that is executed alone ends -/

section Ends

variable {α β : Type} {Q : Except Failure α → Db → Prop} {s : Db} {watched : List Model}

theorem ends_query {f : Db → β} {k : β → Handler α} (hk : (k (f s)).Ends Q s) :
    (query f >>= k).Ends Q s := hk

theorem ends_findUniqueOrThrow {m : Model} {id : Id} {k : Row m → Handler α}
    (hok : ∀ row, s.find? m id = some row → (k row).Ends Q s)
    (herr : Q (.error recordNotFound) s) : (findUniqueOrThrow m id >>= k).Ends Q s := by
  unfold Proc.Ends
  rw [Proc.run_bind, run_findUniqueOrThrow]
  cases h : s.find? m id with
  | some row => exact hok row h
  | none => exact herr

theorem ends_create {m : Model} {row : Row m} {k : Id → Handler α}
    (hk : (k (s.nextId m)).Ends Q (s.insert m row)) : (create m row >>= k).Ends Q s := hk

theorem ends_updateAs {lab : Access} {m : Model} {id : Id} {data : Row m → Row m}
    {k : Row m → Handler α}
    (hok : ∀ row, s.find? m id = some row → (k (data row)).Ends Q (s.modify m id data))
    (herr : s.find? m id = none → Q (.error recordNotFound) s) :
    (updateAs lab m id data >>= k).Ends Q s := by
  have hrun : (updateAs lab m id data).run s = (update m id data).run s := rfl
  unfold Proc.Ends
  rw [Proc.run_bind, hrun, run_update]
  cases h : s.find? m id with
  | some row => exact hok row h
  | none => exact herr h

/-- A part of the code that touches no watched table. -/
theorem Quiet.ends {p : Handler β} (hp : Quiet watched p) {k : β → Handler α}
    (hok : ∀ b t, s.Agree watched t → (k b).Ends Q t)
    (herr : ∀ e t, s.Agree watched t → Q (.error e) t) : (p >>= k).Ends Q s :=
  Proc.Ends.every Db.Agree.refl Db.Agree.trans hp hok herr

end Ends

/-! ## What a handler that is executed alone meets -/

section Meets

variable {α β : Type} {A : Access → Db → Prop} {s : Db}

theorem meets_query (hA : A {} s) {f : Db → β} {k : β → Handler α}
    (hk : (k (f s)).Meets A s) : (query f >>= k).Meets A s := ⟨hA, hk⟩

/-- A row that is found is the row of the state that is asked. -/
theorem meets_findUniqueOrThrow (hA : A {} s) {m : Model} {id : Id} {k : Row m → Handler α}
    (hk : ∀ row, s.find? m id = some row → (k row).Meets A s) :
    (findUniqueOrThrow m id >>= k).Meets A s := by
  refine Proc.Meets.bind ⟨hA, trivial⟩ ?_
  intro row t hrun
  obtain ⟨hrow, rfl⟩ := run_findUniqueOrThrow_eq_ok hrun
  exact hk row hrow

/-- A period that is open is not looked at again. -/
theorem meets_requirePostablePeriod (hA : A {} s) {institutionId : Id} {date : DateTime}
    {k : Unit → Handler α} (hk : (k ()).Meets A s) :
    (requirePostablePeriod institutionId date >>= k).Meets A s := by
  unfold requirePostablePeriod
  rw [Proc.bind_assoc]
  apply meets_query hA
  split
  · apply Proc.Meets.require
    intro _
    exact hk
  · trivial

/-- One write. -/
theorem meets_updateAs {lab : Access} (hA : A lab s) {m : Model} {id : Id} {data : Row m → Row m}
    {k : Row m → Handler α} (hk : ∀ r t, (k r).Meets A t) :
    (updateAs lab m id data >>= k).Meets A s :=
  Proc.Meets.bind ⟨hA, trivial⟩ fun r t _ => hk r t

/-- The record a route leaves at its end. -/
theorem meets_create (hA : A {} s) {m : Model} {row : Row m} {k : Id → Handler α}
    (hk : ∀ id t, (k id).Meets A t) : (create m row >>= k).Meets A s :=
  Proc.Meets.bind ⟨hA, trivial⟩ fun id t _ => hk id t

end Meets

/-! ## Protocols -/

/-- The protocol constrains nothing but the watched tables. -/
def Protocol.Watches {M : Type} (P : Protocol Access Db M) (watched : List Model) : Prop :=
  ∀ lab s s' d, s.Agree watched s' → P.rely s s' ∧ P.guar lab s d s' d

section Follows

variable {α β M : Type} {P : Protocol Access Db M} {watched : List Model}
  {Q : Db → M → Except Failure α → Prop} {s : Db} {d : M}

namespace Protocol.Watches

/-- Reading: the answer is that of a state the present one has come from along
`rely`. -/
theorem query (hP : P.Watches watched) {f : Db → β} {k : β → Handler α}
    (hk : ∀ t, P.rely s t → (k (f t)).Follows P Q t d) :
    (NexusEfos.query f >>= k).Follows P Q s d := by
  intro t ht
  obtain ⟨hrely, hguar⟩ := hP {} t t d (Db.Agree.refl t)
  exact ⟨d, hrely, hguar, hk t ht⟩

theorem findUniqueOrThrow (hP : P.Watches watched) {m : Model} {id : Id}
    {k : Row m → Handler α}
    (hok : ∀ t row, P.rely s t → t.find? m id = some row → (k row).Follows P Q t d)
    (herr : ∀ t, Q t d (.error recordNotFound)) :
    (NexusEfos.findUniqueOrThrow m id >>= k).Follows P Q s d := by
  intro t ht
  obtain ⟨hrely, hguar⟩ := hP {} t t d (Db.Agree.refl t)
  cases hrow : t.find? m id with
  | some row =>
    simp only [hrow]
    exact ⟨d, hrely, hguar, hok t row ht hrow⟩
  | none =>
    simp only [hrow]
    exact ⟨d, hrely, hguar, herr t⟩

theorem updateAs (hP : P.Watches watched) {lab : Access} {m : Model} {id : Id}
    {f : Row m → Row m} {k : Row m → Handler α}
    (hok : ∀ t row, P.rely s t → t.find? m id = some row → ∃ d', P.rely t (t.modify m id f) ∧
      P.guar lab t d (t.modify m id f) d' ∧ (k (f row)).Follows P Q (t.modify m id f) d')
    (herr : ∀ t, Q t d (.error recordNotFound)) :
    (NexusEfos.updateAs lab m id f >>= k).Follows P Q s d := by
  intro t ht
  obtain ⟨hrely, hguar⟩ := hP lab t t d (Db.Agree.refl t)
  cases hrow : t.find? m id with
  | some row =>
    simp only [hrow]
    exact hok t row ht hrow
  | none =>
    simp only [hrow]
    exact ⟨d, hrely, hguar, herr t⟩

/-- A part of the code that touches no watched table. -/
theorem quiet (hP : P.Watches watched) {p : Handler β} (hp : Quiet watched p)
    {k : β → Handler α} (hok : ∀ t b, P.rely s t → (k b).Follows P Q t d)
    (herr : ∀ t e, Q t d (.error e)) : (p >>= k).Follows P Q s d := by
  refine (Proc.Follows.of_every (s := s) hP hp).bind ?_ ?_
  · intro t d' b hb
    obtain ⟨ht, rfl⟩ := hb
    exact hok t b ht
  · intro t d' e he
    obtain ⟨-, rfl⟩ := he
    exact herr t e

/-- The same at the end of the code. -/
theorem quiet_end (hP : P.Watches watched) {p : Handler α} (hp : Quiet watched p)
    (hQ : ∀ t r, P.rely s t → Q t d r) : p.Follows P Q s d := by
  refine (Proc.Follows.of_every (s := s) hP hp).imp ?_
  intro t d' r hr
  obtain ⟨ht, rfl⟩ := hr
  exact hQ t r ht

end Protocol.Watches

end Follows

/-! ## Code that a history does not record -/

/-- No statement touches a watched table, and every label is one that nothing is recorded for. -/
def Spares {α : Type} (L : Access → Prop) (watched : List Model) (p : Handler α) : Prop :=
  p.EveryStep fun lab s t => L lab ∧ s.Agree watched t

namespace Spares

variable {α β : Type} {L : Access → Prop} {watched : List Model} {m : Model}

theorem createAs {lab : Access} (hL : L lab) (hm : m ∉ watched) (row : Row m) :
    Spares L watched (NexusEfos.createAs lab m row) :=
  ⟨fun s => ⟨hL, Db.Agree.insert hm s row⟩, fun _ => trivial⟩

theorem create (hL : L {}) (hm : m ∉ watched) (row : Row m) :
    Spares L watched (NexusEfos.create m row) := createAs hL hm row

theorem transaction {lab : Access} (hL : L lab) {p : Handler α} (hp : Quiet watched p) :
    Spares L watched (Proc.transaction lab p) :=
  Proc.EveryStep.transaction (fun s => ⟨hL, Db.Agree.refl s⟩)
    fun s _ t h => ⟨hL, by simpa only [h] using hp.run s⟩

end Spares

/-- The protocol constrains nothing but the watched tables and what is recorded. -/
def Protocol.AllowsSparing {M : Type} (P : Protocol Access Db M) (L : Access → Prop)
    (watched : List Model) : Prop :=
  ∀ lab s t d, L lab → s.Agree watched t → P.rely s t ∧ P.guar lab s d t d

namespace Protocol.AllowsSparing

variable {α β M : Type} {P : Protocol Access Db M} {L : Access → Prop} {watched : List Model}
  {Q : Db → M → Except Failure α → Prop} {s : Db} {d : M}

theorem first (hP : P.AllowsSparing L watched) {p : Handler β} (hp : Spares L watched p)
    {k : β → Handler α} (hok : ∀ t b, P.rely s t → (k b).Follows P Q t d)
    (herr : ∀ t e, Q t d (.error e)) : (p >>= k).Follows P Q s d := by
  have hfirst := Proc.Follows.of_everyStep (s := s) (d := d)
    (fun lab s t d h => hP lab s t d h.1 h.2) hp
  apply hfirst.bind
  · rintro t _ b ⟨ht, rfl⟩
    exact hok t b ht
  · rintro t _ e ⟨-, rfl⟩
    exact herr t e

theorem last (hP : P.AllowsSparing L watched) {p : Handler α} (hp : Spares L watched p)
    (hQ : ∀ t r, P.rely s t → Q t d r) : p.Follows P Q s d := by
  have hall := Proc.Follows.of_everyStep (s := s) (d := d)
    (fun lab s t d h => hP lab s t d h.1 h.2) hp
  apply hall.imp
  rintro t _ r ⟨ht, rfl⟩
  exact hQ t r ht

/-- The answer is that of a state the present one has come from along `rely`. -/
theorem query (hP : P.AllowsSparing L watched) (hL : L {}) {f : Db → β} {k : β → Handler α}
    (hk : ∀ t, P.rely s t → (k (f t)).Follows P Q t d) :
    (NexusEfos.query f >>= k).Follows P Q s d := by
  intro t ht
  obtain ⟨hrely, hguar⟩ := hP {} t t d hL (Db.Agree.refl t)
  exact ⟨d, hrely, hguar, hk t ht⟩

end Protocol.AllowsSparing

end NexusEfos
