/-
One tax table and one statutory rate of a name in force.

An activation takes the rates that are in force out of it, and puts its own in force in a
statement after that.  Between the two there may be none, and the call owes one: so once a rate
has been in force there is one whenever no activation is under way.  Two activations that both
take out before either puts in leave two rates in force, so there is at most one only in runs in
which an activation finds no other rate in force when it puts in its own.
-/
import NexusEfos.Operations.PayrollProcessing
import NexusEfos.Schema.LiveRows

namespace NexusEfos

open Proc

/-! ## Rates -/

/-- A table of rates, of which one of each key is to be in force. -/
structure RateTable where
  model : Model
  Key : Type
  key : Row model → Key
  active : Row model → Bool
  setActive : Bool → Row model → Row model
  key_setActive : ∀ b row, key (setActive b row) = key row
  active_setActive : ∀ b row, active (setActive b row) = b

def taxTables : RateTable where
  model := .taxTable
  Key := Id
  key := TaxTable.institutionId
  active := TaxTable.active
  setActive := fun active t => { t with active }
  key_setActive := fun _ _ => rfl
  active_setActive := fun _ _ => rfl

def statutoryRates : RateTable where
  model := .statutoryContributionRate
  Key := Id × String
  key := fun r => (r.institutionId, r.name)
  active := StatutoryContributionRate.active
  setActive := fun active r => { r with active }
  key_setActive := fun _ _ => rfl
  active_setActive := fun _ _ => rfl

namespace RateTable

variable (w : RateTable) {s t : Db} {k : w.Key} {id : Id}

/-- The rate is in force under the key. -/
def InForce (s : Db) (k : w.Key) (id : Id) : Prop :=
  ∃ row ∈ s.find? w.model id, w.key row = k ∧ w.active row = true

/-- Of the rates of a key, at most one is in force. -/
def AtMostOne (s : Db) : Prop := s.AtMostOne w.model w.active w.key

/-- No other rate is in force under the key of this one. -/
def Alone (s : Db) (id : Id) : Prop :=
  ∀ row ∈ s.find? w.model id, ∀ e ∈ (s.table w.model).entries,
    w.key e.2 = w.key row → w.active e.2 = true → e.1 = id

instance [DecidableEq w.Key] (s : Db) (id : Id) : Decidable (w.Alone s id) :=
  inferInstanceAs (Decidable (∀ row ∈ s.find? w.model id, ∀ e ∈ (s.table w.model).entries,
    w.key e.2 = w.key row → w.active e.2 = true → e.1 = id))

/-- The rates keep their keys. -/
def Rely (s t : Db) : Prop := s.KeepsRows w.model (fun row row' => w.key row' = w.key row) t

/-- The rates are as they were, and new ones are not in force. -/
structure Kept (s t : Db) : Prop where
  rows : s.KeepsRows w.model
    (fun row row' => w.key row' = w.key row ∧ w.active row' = w.active row) t
  new : ∀ id row, t.find? w.model id = some row → s.find? w.model id = none → w.active row = false

variable {w}

theorem Kept.of_agree (h : s.Agree [w.model] t) : w.Kept s t where
  rows := .of_table_eq (fun _ => ⟨rfl, rfl⟩) (h _ (List.mem_singleton_self _))
  new := by
    intro id row hrow hnone
    rw [h.find? (List.mem_singleton_self _), hnone] at hrow
    exact absurd hrow nofun

theorem Kept.insert {row : Row w.model} (hrow : w.active row = false) (s : Db) :
    w.Kept s (s.insert w.model row) where
  rows := .insert (fun _ => ⟨rfl, rfl⟩) s row
  new := by
    intro id row' hrow' hnone
    rw [Db.find?_insert, hnone] at hrow'
    split at hrow'
    · rw [← Option.some.inj hrow']
      exact hrow
    · exact absurd hrow' nofun

theorem Kept.rely (h : w.Kept s t) : w.Rely s t := by
  intro id row hrow
  obtain ⟨row', hrow', hkey, -⟩ := h.rows id row hrow
  exact ⟨row', hrow', hkey⟩

theorem Kept.atMostOne (h : w.Kept s t) (hs : w.AtMostOne s) : w.AtMostOne t := by
  apply hs.of_liveBefore
  intro id row hrow hactive
  cases hbefore : s.find? w.model id with
  | none =>
    rw [h.new id row hrow hbefore] at hactive
    exact absurd hactive nofun
  | some row₀ =>
    obtain ⟨row', hrow', hkey, hsame⟩ := h.rows id row₀ hbefore
    rw [hrow] at hrow'
    obtain rfl := Option.some.inj hrow'
    exact ⟨row₀, hbefore, hsame ▸ hactive, hkey.symm⟩

theorem Kept.inForce (h : w.Kept s t) (hid : w.InForce s k id) : w.InForce t k id := by
  obtain ⟨row, hrow, hkey, hactive⟩ := hid
  obtain ⟨row', hrow', hkey', hactive'⟩ := h.rows id row hrow
  exact ⟨row', hrow', hkey'.trans hkey, hactive'.trans hactive⟩

end RateTable

/-! ## The statements -/

/-- An activation puts its rate in force when no other of its key is. -/
def Access.ActivatesAlone (lab : Access) (s : Db) : Prop :=
  match lab.activates with
  | some (.taxTable id) => taxTables.Alone s id
  | some (.statutoryRate id) => statutoryRates.Alone s id
  | none => True

instance : DecidableEq taxTables.Key := inferInstanceAs (DecidableEq Id)

instance : DecidableEq statutoryRates.Key := inferInstanceAs (DecidableEq (Id × String))

instance (lab : Access) (s : Db) : Decidable (lab.ActivatesAlone s) := by
  unfold Access.ActivatesAlone
  split <;> infer_instance

/-- Where a call stands: it activates no rate of the table, it has no activation under way, or it
has taken out what was in force under a key. -/
inductive ActivationStage (κ : Type)
  | bystander
  | idle
  | between (key : κ)

def ActivationStage.AtRest {κ : Type} (d : ActivationStage κ) : Prop := ∀ k, d ≠ .between k

/-- What one statement may do to the rates of a table and to the stage of its call. -/
structure RateStep (w : RateTable) (lab : Access) (s : Db) (d : ActivationStage w.Key) (t : Db)
    (d' : ActivationStage w.Key) : Prop where
  bystander : d = .bystander → d' = .bystander
  serves : ∀ k, (∃ id, w.InForce s k id) ∨ d = .between k →
    (∃ id, w.InForce t k id) ∨ d' = .between k
  once : lab.ActivatesAlone s → w.AtMostOne s → w.AtMostOne t

def rateProtocol (w : RateTable) : Protocol Access Db (ActivationStage w.Key) where
  rely := w.Rely
  guar := RateStep w
  refl := fun _ => .of_table_eq (fun _ => rfl) rfl
  trans := Db.KeepsRows.trans fun _ _ _ h h' => h'.trans h

section Follow

variable {w : RateTable} {α : Type} {s : Db} {k : w.Key} {id : Id}

theorem RateTable.Kept.follows {lab : Access} {s t : Db} (h : w.Kept s t)
    (d : ActivationStage w.Key) : (rateProtocol w).rely s t ∧ (rateProtocol w).guar lab s d t d := by
  refine ⟨h.rely, id, ?_, fun _ => h.atMostOne⟩
  rintro k (⟨id, hid⟩ | hd)
  · exact .inl ⟨id, h.inForce hid⟩
  · exact .inr hd

theorem rateProtocol_watches (w : RateTable) : (rateProtocol w).Watches [w.model] :=
  fun _ _ _ d hagree => (RateTable.Kept.of_agree hagree).follows d

/-- Keeping to the protocol and ending at rest. -/
abbrev FollowsRates (w : RateTable) (p : Handler α) (s : Db) (d : ActivationStage w.Key) : Prop :=
  p.Follows (rateProtocol w) (fun _ d _ => d.AtRest) s d

/-- The statement that takes out what is in force under a key. -/
theorem RateStep.takeOut {lab : Access} {p : Id → Row w.model → Bool}
    (hp : ∀ id row, p id row = true ↔ w.key row = k ∧ w.active row = true) (s : Db) :
    (rateProtocol w).rely s
      (s.modifyAll w.model fun id row => if p id row then w.setActive false row else row) ∧
      RateStep w lab s .idle
        (s.modifyAll w.model fun id row => if p id row then w.setActive false row else row)
        (.between k) := by
  have hkey : ∀ id row, w.key (if p id row then w.setActive false row else row) = w.key row := by
    intro id row
    split
    · exact w.key_setActive false row
    · rfl
  refine ⟨.modifyAll s hkey, nofun, ?_, fun _ hs => ?_⟩
  · rintro k' (⟨id, row, hrow, hkey', hactive⟩ | hd)
    · by_cases hk : k' = k
      · exact .inr (hk ▸ rfl)
      · left
        refine ⟨id, row, ?_, hkey', hactive⟩
        have hother : ¬ p id row = true := fun h => hk (hkey'.symm.trans ((hp id row).mp h).1)
        rw [Db.find?_modifyAll, hrow, Option.map_some, if_neg hother]
        rfl
    · exact absurd hd nofun
  · apply hs.of_liveBefore
    intro id row hrow hactive
    rw [Db.find?_modifyAll] at hrow
    obtain ⟨row₀, hrow₀, rfl⟩ := Option.map_eq_some_iff.mp hrow
    by_cases hout : p id row₀ = true
    · rw [if_pos hout, w.active_setActive] at hactive
      exact absurd hactive nofun
    · rw [if_neg hout] at hactive ⊢
      exact ⟨row₀, hrow₀, hactive, rfl⟩

/-- The statement that puts a rate in force. -/
theorem RateStep.putIn {lab : Access} {row : Row w.model} (hrow : s.find? w.model id = some row)
    (hkey : w.key row = k) (halone : lab.ActivatesAlone s → w.Alone s id) :
    (rateProtocol w).rely s (s.modify w.model id (w.setActive true)) ∧
      RateStep w lab s (.between k) (s.modify w.model id (w.setActive true)) .idle := by
  have hself : (s.modify w.model id (w.setActive true)).find? w.model id =
      some (w.setActive true row) := by
    rw [Db.find?_modify, if_pos rfl, hrow]
    rfl
  have hkeeps : w.Rely s (s.modify w.model id (w.setActive true)) := by
    apply Db.KeepsRows.modify
    · exact fun _ => rfl
    · exact w.key_setActive true
  refine ⟨hkeeps, nofun, ?_, fun hlab hs => ?_⟩
  · rintro k' (⟨id', row', hrow', hkey', hactive⟩ | hd)
    · left
      by_cases hid : id' = id
      · subst hid
        rw [hrow] at hrow'
        obtain rfl := Option.some.inj hrow'
        exact ⟨id', _, hself, (w.key_setActive true row).trans hkey', w.active_setActive true row⟩
      · refine ⟨id', row', ?_, hkey', hactive⟩
        rw [Db.find?_modify, if_neg hid]
        exact hrow'
    · left
      obtain rfl := ActivationStage.between.inj hd
      exact ⟨id, _, hself, (w.key_setActive true row).trans hkey, w.active_setActive true row⟩
  · apply hs.switch id (w.setActive true row) hself
    intro id' row' hid hrow' hactive
    rw [Db.find?_modify, if_neg hid] at hrow'
    refine ⟨fun hsame => ?_, row', hrow', hactive, rfl⟩
    rw [w.key_setActive] at hsame
    exact hid (halone hlab row hrow (id', row') (OrderedMap.get?_eq_some.mp hrow') hsame hactive)

/-- An activation from its second statement on, of a rate that is there. -/
theorem activate_follows {lab : Access} {p : Id → Row w.model → Bool} {rest : Row w.model → Handler α}
    (hp : ∀ id row, p id row = true ↔ w.key row = k ∧ w.active row = true)
    (hlab : ∀ s, lab.ActivatesAlone s → w.Alone s id) (hrest : ∀ row, Quiet [w.model] (rest row))
    {row : Row w.model} (hrow : s.find? w.model id = some row) (hkey : w.key row = k) :
    FollowsRates w (updateMany w.model p (w.setActive false) >>= fun _ =>
      updateAs lab w.model id (w.setActive true) >>= rest) s .idle := by
  intro t ht
  obtain ⟨hrely, hstep⟩ := RateStep.takeOut hp t
  refine ⟨.between k, hrely, hstep, ?_⟩
  intro t' ht'
  obtain ⟨row', hrow', hkey'⟩ := (rateProtocol w).trans ((rateProtocol w).trans ht hrely) ht' id row hrow
  simp only [hrow']
  obtain ⟨hrely', hstep'⟩ := RateStep.putIn hrow' (hkey'.trans hkey) (hlab t')
  refine ⟨.idle, hrely', hstep', ?_⟩
  exact (rateProtocol_watches w).quiet_end (hrest _) fun _ _ _ _ => nofun

/-- A call that keeps the rates of a table as they are. -/
theorem followsRates_of_kept {p : Handler α} (hp : p.Every w.Kept) {d : ActivationStage w.Key}
    (hd : d.AtRest) : FollowsRates w p s d := by
  refine (Follows.of_every (fun _ _ _ d h => h.follows d) hp).imp ?_
  rintro _ _ _ ⟨-, rfl⟩
  exact hd

end Follow

/-! ## The calls -/

inductive RateCall
  | activateTaxTable (auth : Auth) (tableId : Id)
  | activateStatutoryRate (auth : Auth) (rateId : Id)
  | createTaxTable (auth : Auth) (name : String) (effectiveDate : DateTime)
    (bands : List TaxBandRequest)
  | createStatutoryRate (auth : Auth) (body : StatutoryRateRequest)
  | other (p : Handler Unit) (h : Quiet [.taxTable, .statutoryContributionRate] p)

namespace RateCall

def handler : RateCall → Handler Unit
  | activateTaxTable auth tableId => do let _ ← NexusEfos.activateTaxTable auth tableId
  | activateStatutoryRate auth rateId => do let _ ← NexusEfos.activateStatutoryRate auth rateId
  | createTaxTable auth name effectiveDate bands => do
    let _ ← NexusEfos.createTaxTable auth name effectiveDate bands
  | createStatutoryRate auth body => do let _ ← NexusEfos.createStatutoryRate auth body
  | other p _ => p

/-- The call is an activation. -/
def isActivation : RateCall → Bool
  | activateTaxTable .. | activateStatutoryRate .. => true
  | _ => false

/-- The stage in which a call starts. -/
def taxStage : RateCall → ActivationStage taxTables.Key
  | activateTaxTable .. => .idle
  | _ => .bystander

def rateStage : RateCall → ActivationStage statutoryRates.Key
  | activateStatutoryRate .. => .idle
  | _ => .bystander

variable {s : Db}

theorem createTaxTable_kept (auth : Auth) (name : String) (effectiveDate : DateTime)
    (bands : List TaxBandRequest) :
    (NexusEfos.createTaxTable auth name effectiveDate bands).Every taxTables.Kept := by
  refine Every.require_bind fun _ => Every.bind ⟨fun s => ?_, fun _ => trivial⟩ fun table => ?_
  · exact RateTable.Kept.insert (w := taxTables) rfl s
  · have hquiet : Quiet [taxTables.model] (do
        let _ ← create .auditLog
          { institutionId := auth.institutionId, userId := some auth.userId,
            action := "tax_table.create", resource := "tax_table", resourceId := some table }
        return table) := (Quiet.create (by decide) _).bind fun _ => Quiet.pure _
    exact Every.imp hquiet fun _ _ h => .of_agree h

theorem createStatutoryRate_kept (auth : Auth) (body : StatutoryRateRequest) :
    (NexusEfos.createStatutoryRate auth body).Every statutoryRates.Kept := by
  refine Every.require_bind fun _ => Every.bind ⟨fun s => ?_, fun _ => trivial⟩ fun rate => ?_
  · exact RateTable.Kept.insert (w := statutoryRates) rfl s
  · have hquiet : Quiet [statutoryRates.model] (do
        let _ ← create .auditLog
          { institutionId := auth.institutionId, userId := some auth.userId,
            action := "statutory_rate.create", resource := "statutory_contribution_rate",
            resourceId := some rate }
        return rate) := (Quiet.create (by decide) _).bind fun _ => Quiet.pure _
    exact Every.imp hquiet fun _ _ h => .of_agree h

/-- The activation of a tax table does not touch the statutory rates. -/
theorem quiet_activateTaxTable (auth : Auth) (tableId : Id) :
    Quiet [.statutoryContributionRate] (NexusEfos.activateTaxTable auth tableId) := by
  refine (Quiet.query _).bind fun _ => (Quiet.orFail _ _).bind fun _ => ?_
  refine (Quiet.updateMany (by decide) _ _).bind fun _ => ?_
  refine (Quiet.updateAs (by decide) _ _ _).bind fun _ => ?_
  exact (Quiet.create (by decide) _).bind fun _ => Quiet.pure _

theorem quiet_activateStatutoryRate (auth : Auth) (rateId : Id) :
    Quiet [.taxTable] (NexusEfos.activateStatutoryRate auth rateId) := by
  refine (Quiet.query _).bind fun _ => (Quiet.orFail _ _).bind fun _ => ?_
  refine (Quiet.updateMany (by decide) _ _).bind fun _ => ?_
  refine (Quiet.updateAs (by decide) _ _ _).bind fun _ => ?_
  exact (Quiet.create (by decide) _).bind fun _ => Quiet.pure _

theorem quiet_createTaxTable (auth : Auth) (name : String) (effectiveDate : DateTime)
    (bands : List TaxBandRequest) :
    Quiet [.statutoryContributionRate] (NexusEfos.createTaxTable auth name effectiveDate bands) := by
  refine (Quiet.require _ _).bind fun _ => (Quiet.create (by decide) _).bind fun _ => ?_
  exact (Quiet.create (by decide) _).bind fun _ => Quiet.pure _

theorem quiet_createStatutoryRate (auth : Auth) (body : StatutoryRateRequest) :
    Quiet [.taxTable] (NexusEfos.createStatutoryRate auth body) := by
  refine (Quiet.require _ _).bind fun _ => (Quiet.create (by decide) _).bind fun _ => ?_
  exact (Quiet.create (by decide) _).bind fun _ => Quiet.pure _

theorem activateTaxTable_follows (auth : Auth) (tableId : Id) :
    FollowsRates taxTables (NexusEfos.activateTaxTable auth tableId) s .idle := by
  refine (rateProtocol_watches taxTables).query fun t _ => ?_
  refine Follows.orFail (fun table htable => ?_) fun _ _ => nofun
  obtain ⟨hrow, hinstitution⟩ := Option.filter_eq_some_iff.mp htable
  have hkey : table.institutionId = auth.institutionId := of_decide_eq_true hinstitution
  refine activate_follows (w := taxTables) (k := auth.institutionId) ?_ ?_ ?_ hrow hkey
  · intro _ row
    show (decide (row.institutionId = auth.institutionId) && row.active) = true ↔
      row.institutionId = auth.institutionId ∧ row.active = true
    rw [Bool.and_eq_true, decide_eq_true_iff]
  · exact fun _ halone => halone
  · exact fun _ => (Quiet.create (by decide) _).bind fun _ => Quiet.pure _

theorem activateStatutoryRate_follows (auth : Auth) (rateId : Id) :
    FollowsRates statutoryRates (NexusEfos.activateStatutoryRate auth rateId) s .idle := by
  refine (rateProtocol_watches statutoryRates).query fun t _ => ?_
  refine Follows.orFail (fun rate hrate => ?_) fun _ _ => nofun
  obtain ⟨hrow, hinstitution⟩ := Option.filter_eq_some_iff.mp hrate
  have hkey : rate.institutionId = auth.institutionId := of_decide_eq_true hinstitution
  refine activate_follows (w := statutoryRates) (k := (auth.institutionId, rate.name)) ?_ ?_ ?_ hrow
    (congrArg (fun institutionId => (institutionId, rate.name)) hkey)
  · intro _ row
    show (decide (row.institutionId = auth.institutionId) && decide (row.name = rate.name) &&
      row.active) = true ↔ (row.institutionId, row.name) = (auth.institutionId, rate.name) ∧
        row.active = true
    rw [Bool.and_eq_true, Bool.and_eq_true, decide_eq_true_iff, decide_eq_true_iff, Prod.mk.injEq]
  · exact fun _ halone => halone
  · exact fun _ => (Quiet.create (by decide) _).bind fun _ => Quiet.pure _

/-- A call whose result is dropped. -/
theorem follows_drop {w : RateTable} {α : Type} {p : Handler α} {d : ActivationStage w.Key}
    (hp : FollowsRates w p s d) : FollowsRates w (do let _ ← p) s d :=
  hp.bind (fun _ _ _ h => h) fun _ _ _ h => h

theorem follows_quiet {w : RateTable} {α : Type} {p : Handler α} (hp : Quiet [w.model] p) :
    FollowsRates w p s .bystander :=
  (rateProtocol_watches w).quiet_end hp fun _ _ _ _ => nofun

/-- Every call keeps to the protocol of the tax tables. -/
theorem followsTax (call : RateCall) : FollowsRates taxTables call.handler s call.taxStage := by
  cases call with
  | activateTaxTable auth tableId => exact follows_drop (activateTaxTable_follows auth tableId)
  | activateStatutoryRate auth rateId =>
    exact follows_drop (follows_quiet (quiet_activateStatutoryRate auth rateId))
  | createTaxTable auth name effectiveDate bands =>
    exact follows_drop (followsRates_of_kept
      (createTaxTable_kept auth name effectiveDate bands) fun _ => nofun)
  | createStatutoryRate auth body => exact follows_drop (follows_quiet (quiet_createStatutoryRate auth body))
  | other p h =>
    exact follows_quiet (Every.imp h fun _ _ hagree => hagree.mono (by decide))

/-- And to that of the statutory rates. -/
theorem followsRate (call : RateCall) :
    FollowsRates statutoryRates call.handler s call.rateStage := by
  cases call with
  | activateTaxTable auth tableId =>
    exact follows_drop (follows_quiet (quiet_activateTaxTable auth tableId))
  | activateStatutoryRate auth rateId =>
    exact follows_drop (activateStatutoryRate_follows auth rateId)
  | createTaxTable auth name effectiveDate bands =>
    exact follows_drop (follows_quiet (quiet_createTaxTable auth name effectiveDate bands))
  | createStatutoryRate auth body =>
    exact follows_drop (followsRates_of_kept (createStatutoryRate_kept auth body) fun _ => nofun)
  | other p h =>
    exact follows_quiet (Every.imp h fun _ _ hagree => hagree.mono (by decide))

end RateCall

/-! ## Runs of the calls -/

section Runs

variable {ι : Type} [DecidableEq ι]

def ratePool (calls : ι → RateCall) (s : Db) : Pool ι Access Db Failure Unit :=
  ⟨fun i => (calls i).handler, s⟩

/-- No activation that has been started is still under way. -/
def RatesAtRest (calls : ι → RateCall) (s : Db) (sched : List ι) : Prop :=
  ∀ i ∈ sched, (calls i).isActivation = true →
    ∃ r, ((ratePool calls s).run sched).threads i = .done r

/-- Calls that keep to the protocol of a table, of which only activations are ever between two of
their statements. -/
theorem exists_inForce {w : RateTable} {calls : ι → RateCall} {s : Db}
    {stage : RateCall → ActivationStage w.Key}
    (hstage : ∀ call, stage call = .bystander ∨ stage call = .idle ∧ call.isActivation = true)
    (hcalls : ∀ call s, FollowsRates w (RateCall.handler call) s (stage call)) {before after : List ι}
    (hrest : RatesAtRest calls s (before ++ after)) {k : w.Key}
    (honce : ∃ id, w.InForce ((ratePool calls s).run before).state k id) :
    ∃ id, w.InForce ((ratePool calls s).run (before ++ after)).state k id := by
  have hby : ∀ {a b c : ActivationStage w.Key}, (a = .bystander → b = .bystander) →
      (b = .bystander → c = .bystander) → a = .bystander → c = .bystander :=
    fun h h' ha => h' (h ha)
  have hstart : (ratePool calls s).Follows (rateProtocol w) (fun d _ => d.AtRest)
      fun i => stage (calls i) := fun i => hcalls (calls i) s
  obtain ⟨d, hd, hbefore, hidle, -⟩ := hstart.run_owing (fun _ => True) (fun _ => True)
    (fun a b => a = .bystander → b = .bystander) (fun _ => id) hby
    (fun _ _ _ _ _ _ h _ => ⟨RateStep.bystander h, id⟩) (.inl trivial) (Pool.allowed_true _ before)
  obtain ⟨d', hd', hafter, hidle', hend⟩ := hd.run_owing (fun s => ∃ id, w.InForce s k id)
    (fun d => d = .between k) (fun a b => a = .bystander → b = .bystander) (fun _ => id) hby
    (fun _ _ _ _ _ _ h _ => ⟨RateStep.bystander h, RateStep.serves h k⟩) (.inl honce)
    (Pool.allowed_true _ after)
  rw [Pool.run_append]
  rcases hend with hserved | ⟨i, hi⟩
  · exact hserved
  · rcases hstage (calls i) with hbystander | ⟨hstarts, hactivation⟩
    · rw [hafter i (hbefore i hbystander)] at hi
      exact absurd hi nofun
    · by_cases hmem : i ∈ before ++ after
      · obtain ⟨r, hr⟩ := hrest i hmem hactivation
        have hdone := hd' i
        rw [← Pool.run_append, hr] at hdone
        exact absurd hi (hdone k)
      · rw [List.mem_append, not_or] at hmem
        rw [hidle' i hmem.2, hidle i hmem.1, hstarts] at hi
        exact absurd hi nofun

theorem run_atMostOne {w : RateTable} {calls : ι → RateCall} {s : Db}
    {stage : RateCall → ActivationStage w.Key}
    (hcalls : ∀ call s, FollowsRates w (RateCall.handler call) s (stage call)) (hs : w.AtMostOne s)
    {sched : List ι} (halone : (ratePool calls s).Allowed Access.ActivatesAlone sched) :
    w.AtMostOne ((ratePool calls s).run sched).state := by
  have hstart : (ratePool calls s).Follows (rateProtocol w) (fun d _ => d.AtRest)
      fun i => stage (calls i) := fun i => hcalls (calls i) s
  have honce : ∀ (lab : Access) (s : Db) (d : ActivationStage w.Key) (t : Db)
      (d' : ActivationStage w.Key), lab.ActivatesAlone s → (rateProtocol w).guar lab s d t d' →
      (rateProtocol w).rely s t → w.AtMostOne s → w.AtMostOne t :=
    fun _ _ _ _ _ hlab h _ => h.once hlab
  exact Pool.Follows.run_invariant honce hstart hs halone

theorem RateTable.AtMostOne.existsUnique {w : RateTable} {s : Db} {k : w.Key} (hs : w.AtMostOne s)
    (h : ∃ id, w.InForce s k id) : ∃! id, w.InForce s k id := by
  obtain ⟨id, hid⟩ := h
  refine ⟨id, hid, ?_⟩
  rintro id' ⟨row', hrow', hkey', hactive'⟩
  obtain ⟨row, hrow, hkey, hactive⟩ := hid
  exact hs id' row' id row hrow' hrow hactive' hactive (hkey'.trans hkey.symm)

/-- In a run in which every activation finds no other rate in force when it puts in its own,
exactly one tax table of an institution is active whenever no activation is under way, once one
has been, and exactly one statutory rate of each name. -/
theorem one_rate_at_a_time (calls : ι → RateCall) (s : Db) (htables : taxTables.AtMostOne s)
    (hrates : statutoryRates.AtMostOne s) (before after : List ι)
    (halone : (ratePool calls s).Allowed Access.ActivatesAlone (before ++ after))
    (hrest : RatesAtRest calls s (before ++ after)) :
    (∀ institutionId : Id,
      (∃ id, taxTables.InForce ((ratePool calls s).run before).state institutionId id) →
        ∃! id, taxTables.InForce ((ratePool calls s).run (before ++ after)).state institutionId id) ∧
    ∀ (institutionId : Id) (name : String),
      (∃ id, statutoryRates.InForce ((ratePool calls s).run before).state (institutionId, name) id) →
        ∃! id, statutoryRates.InForce ((ratePool calls s).run (before ++ after)).state
          (institutionId, name) id := by
  constructor
  · intro institutionId honce
    apply (run_atMostOne (fun call _ => call.followsTax) htables halone).existsUnique
    apply exists_inForce _ (fun call _ => call.followsTax) hrest honce
    intro call
    cases call with
    | activateTaxTable => exact .inr ⟨rfl, rfl⟩
    | activateStatutoryRate | createTaxTable | createStatutoryRate | other => exact .inl rfl
  · intro institutionId name honce
    apply (run_atMostOne (fun call _ => call.followsRate) hrates halone).existsUnique
    apply exists_inForce _ (fun call _ => call.followsRate) hrest honce
    intro call
    cases call with
    | activateStatutoryRate => exact .inr ⟨rfl, rfl⟩
    | activateTaxTable | createTaxTable | createStatutoryRate | other => exact .inl rfl

end Runs

/-! ## Two activations that take turns -/

/-- Two tax tables of an institution, the first in force. -/
def rateBooks : Db :=
  (Db.empty.insert .taxTable
    { institutionId := 1, name := "2025", effectiveDate := 0, active := true }).insert .taxTable
    { institutionId := 1, name := "2026", effectiveDate := 1 }

theorem rateBooks_taxTables : taxTables.AtMostOne rateBooks := by
  have hempty : taxTables.AtMostOne Db.empty := fun _ _ _ _ hrow => absurd hrow nofun
  have hfirst : taxTables.AtMostOne (Db.empty.insert .taxTable
      { institutionId := 1, name := "2025", effectiveDate := 0, active := true }) :=
    Db.AtMostOne.insert hempty fun _ _ _ hrow => absurd hrow nofun
  exact Db.AtMostOne.insert hfirst fun hactive => absurd hactive nofun

theorem rateBooks_statutoryRates : statutoryRates.AtMostOne rateBooks :=
  fun _ _ _ _ hrow => absurd hrow nofun

/-- The two tables are activated by two administrators. -/
def rateCalls : Bool → RateCall
  | false => .activateTaxTable ⟨1, 1⟩ 1
  | true => .activateTaxTable ⟨1, 2⟩ 2

theorem one_rate_at_a_time_rateCalls :
    ∃! id, taxTables.InForce
      ((ratePool rateCalls rateBooks).run ([] ++ [true, true, true, true])).state (1 : Id) id := by
  refine (one_rate_at_a_time rateCalls rateBooks rateBooks_taxTables rateBooks_statutoryRates []
    [true, true, true, true] (by decide +kernel) ?_).1 (1 : Id) ⟨1, _, rfl, rfl, rfl⟩
  intro i hi _
  have htrue : i = true := by simpa using hi
  rw [htrue]
  exact ⟨_, rfl⟩

/-- Both calls take out what is in force before either puts its own table in. -/
theorem two_tables_in_force :
    (((ratePool rateCalls rateBooks).run
      [false, true, false, true, false, true, false, true]).state.table .taxTable).values.map
        TaxTable.active = [true, true] ∧
      ∀ i, ∃ r, ((ratePool rateCalls rateBooks).run
        [false, true, false, true, false, true, false, true]).threads i = .done r := by
  refine ⟨by decide +kernel, fun i => ?_⟩
  cases i <;> exact ⟨_, rfl⟩

end NexusEfos
