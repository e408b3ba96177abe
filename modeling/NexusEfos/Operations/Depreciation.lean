/-
How far an asset is depreciated.

Every run takes a whole number of cents off the asset, never more than what is left above the residual
value, and the run of the last month takes all of it.  A month whose amount rounds to nothing is
refused as if the asset were fully depreciated, and as it leaves no entry the last month never comes.
-/
import Mathlib.Data.Fintype.EquivFin
import NexusEfos.Operations.AssetDisposals

namespace NexusEfos

open Proc

/-! ## The amount of a month -/

namespace DepreciationInput

/-- What is left to depreciate. -/
def remaining (input : DepreciationInput) : ℚ :=
  input.acquisitionCost - input.accumulatedDepreciationSoFar - input.residualValue

/-- What the method takes off in a month. -/
def monthlyAmount (input : DepreciationInput) : ℚ :=
  match input.method with
  | .straightLine => (input.acquisitionCost - input.residualValue) / input.usefulLifeMonths
  | .reducingBalance => (input.acquisitionCost - input.accumulatedDepreciationSoFar) *
      (input.annualRate.getD 0 / 100 / 12)

/-- It is the last month of the useful life, or a later one. -/
def IsFinalPeriod (input : DepreciationInput) : Prop := input.usefulLifeMonths ≤ input.monthsElapsed + 1

instance (input : DepreciationInput) : Decidable input.IsFinalPeriod :=
  inferInstanceAs (Decidable (_ ≤ _))

end DepreciationInput

section Amount

variable {input : DepreciationInput}

theorem calculateMonthlyDepreciation_eq (input : DepreciationInput) :
    calculateMonthlyDepreciation input =
      if input.remaining ≤ 0 then 0
      else if input.IsFinalPeriod then round2 input.remaining
      else round2 (min input.monthlyAmount input.remaining) := rfl

theorem calculateMonthlyDepreciation_final (hpos : 0 < input.remaining) (hfinal : input.IsFinalPeriod)
    (hwhole : WholeCent input.remaining) : calculateMonthlyDepreciation input = input.remaining := by
  rw [calculateMonthlyDepreciation_eq, if_neg (not_le.mpr hpos), if_pos hfinal]
  exact hwhole.round2_eq

theorem calculateMonthlyDepreciation_earlier (hpos : 0 < input.remaining)
    (hfinal : ¬ input.IsFinalPeriod) :
    calculateMonthlyDepreciation input = round2 (min input.monthlyAmount input.remaining) := by
  rw [calculateMonthlyDepreciation_eq, if_neg (not_le.mpr hpos), if_neg hfinal]

theorem calculateMonthlyDepreciation_done (hdone : input.remaining ≤ 0) :
    calculateMonthlyDepreciation input = 0 := by
  rw [calculateMonthlyDepreciation_eq, if_pos hdone]

/-- The residual value is never touched. -/
theorem calculateMonthlyDepreciation_le (hwhole : WholeCent input.remaining)
    (hremaining : 0 ≤ input.remaining) : calculateMonthlyDepreciation input ≤ input.remaining := by
  rcases hremaining.eq_or_lt with hdone | hpos
  · rw [calculateMonthlyDepreciation_done hdone.symm.le, ← hdone]
  · by_cases hfinal : input.IsFinalPeriod
    · exact (calculateMonthlyDepreciation_final hpos hfinal hwhole).le
    · rw [calculateMonthlyDepreciation_earlier hpos hfinal]
      calc round2 (min input.monthlyAmount input.remaining) ≤ round2 input.remaining :=
            round2_le_round2 (min_le_right _ _)
        _ = input.remaining := hwhole.round2_eq

/-- Half a cent is the least that counts. -/
theorem round2_pos_iff {x : ℚ} : 0 < round2 x ↔ 1 / 200 ≤ x := by
  rw [round2_eq_toNumber, toNumber_pos, round_eq]
  show 1 ≤ ⌊x * 100 + 1 / 2⌋ ↔ _
  rw [Int.le_floor]
  push_cast
  constructor
  · intro h
    linarith
  · intro h
    linarith

/-- When there is an amount. -/
theorem calculateMonthlyDepreciation_pos_iff (hwhole : WholeCent input.remaining) :
    0 < calculateMonthlyDepreciation input ↔
      0 < input.remaining ∧ (input.IsFinalPeriod ∨ 1 / 200 ≤ input.monthlyAmount) := by
  rcases le_or_gt input.remaining 0 with hdone | hpos
  · rw [calculateMonthlyDepreciation_done hdone]
    exact iff_of_false (lt_irrefl 0) fun h => absurd h.1 (not_lt.mpr hdone)
  · rw [and_iff_right hpos]
    by_cases hfinal : input.IsFinalPeriod
    · rw [calculateMonthlyDepreciation_final hpos hfinal hwhole]
      exact iff_of_true hpos (.inl hfinal)
    · rw [calculateMonthlyDepreciation_earlier hpos hfinal, round2_pos_iff, le_min_iff,
        or_iff_right hfinal]
      refine and_iff_left ?_
      rw [← round2_pos_iff, hwhole.round2_eq]
      exact hpos

end Amount

/-! ## What a run of depreciation does -/

/-- The asset, as a run reads it. -/
def Asset.depreciationInput (a : Asset) (monthsElapsed : ℕ) : DepreciationInput :=
  { acquisitionCost := toNumber a.acquisitionCost, residualValue := toNumber a.residualValue,
    usefulLifeMonths := a.usefulLifeMonths, method := a.depreciationMethod,
    annualRate := a.depreciationRate,
    accumulatedDepreciationSoFar := toNumber a.accumulatedDepreciation, monthsElapsed }

/-- The amounts of the entries of an asset. -/
def Db.depreciations (s : Db) (assetId : Id) : List Cents :=
  ((s.table .assetDepreciationEntry).values.filter fun e => e.assetId = assetId).map
    AssetDepreciationEntry.depreciationAmount

/-- The amount of the next run. -/
def Db.nextDepreciation (s : Db) (assetId : Id) (a : Asset) : ℚ :=
  calculateMonthlyDepreciation (a.depreciationInput (s.depreciations assetId).length)

def fullyDepreciated : Failure := .http 400 "This asset is already fully depreciated"

/-- One run: an entry of the amount, which the asset has lost. -/
structure Db.Depreciates (s : Db) (assetId : Id) (a : Asset) (t : Db) : Prop where
  found : s.find? .asset assetId = some a
  amount : 0 < s.nextDepreciation assetId a
  assets : ∀ id, t.find? .asset id = if id = assetId then
    some { a with accumulatedDepreciation :=
      a.accumulatedDepreciation + ofNumber (s.nextDepreciation assetId a) }
    else s.find? .asset id
  entries : ∀ id, t.depreciations id = s.depreciations id ++
    if id = assetId then [ofNumber (s.nextDepreciation assetId a)] else []

section Handler

variable {s : Db} {auth : Auth} {now : DateTime} {assetId : Id} {periodLabel : String}

theorem applyLinesById_fails (accountById : Id → Option GLAccount) (lines : List LineInput)
    (s : Db) : (applyLinesById accountById lines).Ends (fun r _ => r ≠ .error fullyDepreciated) s := by
  induction lines generalizing s with
  | nil => exact nofun
  | cons l ls ih =>
    rw [applyLinesById, Proc.forEach_cons]
    refine Ends.bind (show Ends (fun r _ => r ≠ .error fullyDepreciated) _ s from ?_)
      (fun _ t _ => ih t) fun e t he h => he (congrArg Except.error (Except.error.inj h))
    refine Ends.orFail (fun account _ => ?_) fun _ => nofun
    exact ends_updateAs (fun _ _ => nofun) fun _ => nofun

theorem writes_postDepreciation (auth : Auth) (now : DateTime) (asset : Asset)
    (periodLabel : String) (amount : ℚ) :
    Writes [.journal, .gLAccount] (postDepreciation auth now asset periodLabel amount) := by
  refine (Writes.query _).bind fun mappings => ?_
  split
  · exact Writes.pure _
  · refine (Writes.query _).bind fun glPeriod => Writes.ite ?_ (Writes.pure _)
    refine (Writes.query _).bind fun accountById => ?_
    refine (Writes.createJournalAs (by decide) _ _).bind fun journal => ?_
    exact (Writes.applyLinesById (by decide) _ _).bind fun _ => Writes.pure _

theorem postDepreciation_fails (asset : Asset) (amount : ℚ) :
    (postDepreciation auth now asset periodLabel amount).Ends
      (fun r _ => r ≠ .error fullyDepreciated) s := by
  refine ends_query ?_
  split
  · exact nofun
  · refine ends_query ?_
    split
    · refine ends_query (Ends.bind
        (show Ends (fun r _ => r ≠ .error fullyDepreciated) _ s from ?_) ?_ ?_)
      · unfold Ends createJournalAs
        rw [run_attempt]
        split
        · exact nofun
        · exact nofun
      · intro journal t _
        refine Ends.bind (applyLinesById_fails _ _ t) (fun _ _ _ => nofun) fun e t he h => ?_
        exact he (congrArg Except.error (Except.error.inj h))
      · exact fun e t he h => he (congrArg Except.error (Except.error.inj h))
    · exact nofun

theorem count_depreciations (s : Db) (assetId : Id) :
    ((s.table .assetDepreciationEntry).entries.filter fun e => e.2.assetId = assetId).length =
      (s.depreciations assetId).length := by
  unfold Db.depreciations OrderedMap.values
  rw [List.filter_map, List.length_map, List.length_map]
  rfl

/-- The writes of a run. -/
theorem Db.Depreciates.of_writes {t : Db} {a : Asset}
    (hkept : s.Agree [.asset, .assetDepreciationEntry] t) (hfound : s.find? .asset assetId = some a)
    (hpos : 0 < s.nextDepreciation assetId a) {row : AssetDepreciationEntry}
    (hasset : row.assetId = assetId)
    (hamount : row.depreciationAmount = ofNumber (s.nextDepreciation assetId a)) {f : Asset → Asset}
    (hf : f a = { a with accumulatedDepreciation := ofNumber (round2
      (toNumber a.accumulatedDepreciation + s.nextDepreciation assetId a)) }) (log : AuditLog) :
    s.Depreciates assetId a (((t.insert .assetDepreciationEntry row).modify .asset assetId f).insert
      .auditLog log) := by
  have hwhole : WholeCent (s.nextDepreciation assetId a) := wholeCent_calculateMonthlyDepreciation _
  have haccumulated : ofNumber (round2 (toNumber a.accumulatedDepreciation +
      s.nextDepreciation assetId a)) =
        a.accumulatedDepreciation + ofNumber (s.nextDepreciation assetId a) := by
    rw [((wholeCent_toNumber _).add hwhole).round2_eq, hwhole.ofNumber_toNumber_add]
  refine ⟨hfound, hpos, fun id => ?_, fun id => ?_⟩
  · rw [Db.find?_insert_of_ne (by decide), Db.find?_modify, Db.find?_insert_of_ne (by decide),
      hkept.find? (by decide)]
    by_cases hid : id = assetId
    · rw [if_pos hid, if_pos hid, hid, hfound, Option.map_some, hf, haccumulated]
    · rw [if_neg hid, if_neg hid]
  · have hentries : (((((t.insert .assetDepreciationEntry row).modify .asset assetId f).insert
        .auditLog log).table .assetDepreciationEntry).values : List AssetDepreciationEntry) =
          (s.table .assetDepreciationEntry).values ++ [row] := by
      rw [Db.table_insert_of_ne (by decide), Db.table_modify_of_ne (by decide),
        Db.table_insert_self, OrderedMap.values_create, hkept _ (by decide)]
    unfold Db.depreciations
    rw [hentries, List.filter_append, List.map_append, List.filter_singleton, hasset]
    by_cases hid : id = assetId
    · rw [if_pos hid, hid, decide_eq_true rfl, ← hamount]
      rfl
    · rw [if_neg hid, decide_eq_false (Ne.symm hid)]
      rfl

/-- How a run ends: it is refused or fails and changes no figure, or it takes its amount off. -/
inductive DepreciationEnd (s : Db) (assetId : Id) : Except Failure Id → Db → Prop
  | failed {e : Failure} {t : Db} (hkept : s.Agree [.asset, .assetDepreciationEntry] t)
      (hrefused : e = fullyDepreciated → ∃ a, s.find? .asset assetId = some a ∧
        a.status ≠ .disposed ∧ s.nextDepreciation assetId a ≤ 0) :
      DepreciationEnd s assetId (.error e) t
  | posted {id : Id} {t : Db} (a : Asset) (hposted : s.Depreciates assetId a t) :
      DepreciationEnd s assetId (.ok id) t

theorem processDepreciation_ends (s : Db) (auth : Auth) (now : DateTime) (assetId : Id)
    (periodLabel : String) :
    (processDepreciation auth now assetId periodLabel).Ends (DepreciationEnd s assetId) s := by
  have hsame : s.Agree [.asset, .assetDepreciationEntry] s := .refl s
  refine Ends.require (fun _ => ?_) fun _ => .failed hsame nofun
  refine ends_query (Ends.orFail (fun asset hasset => ?_) fun _ => .failed hsame nofun)
  refine Ends.require (fun hinUse => ?_) fun _ => .failed hsame nofun
  refine ends_query (Ends.require (fun _ => ?_) fun _ => .failed hsame ?_)
  · refine ends_query ?_
    have hfound : s.find? .asset assetId = some asset := (Option.filter_eq_some_iff.mp hasset).1
    have hamount : calculateMonthlyDepreciation (asset.depreciationInput
        ((s.table .assetDepreciationEntry).entries.filter fun e => e.2.assetId = assetId).length) =
          s.nextDepreciation assetId asset := by
      rw [count_depreciations]
      rfl
    have hwhole := wholeCent_calculateMonthlyDepreciation
      (asset.depreciationInput (s.depreciations assetId).length)
    refine Ends.require (fun hpos => ?_) fun hnone => .failed hsame fun _ => ?_
    · have hpost : (postDepreciation auth now asset periodLabel (s.nextDepreciation assetId asset)).Ends
          (fun r t => s.Agree [.asset, .assetDepreciationEntry] t ∧ r ≠ .error fullyDepreciated) s :=
        ⟨((writes_postDepreciation auth now asset periodLabel _).quiet (by decide)).run s,
          postDepreciation_fails asset _⟩
      rw [← hamount] at hpost
      refine hpost.bind (fun journalId t ht => ?_) fun e t ht => .failed ht.1 fun he =>
        absurd (congrArg Except.error he) ht.2
      refine ends_create (ends_updateAs (fun row hrow => ends_create ?_) fun hnone => ?_)
      · have hstored : ∀ a : Asset, ({ a with accumulatedDepreciation := ofNumber (round2
            (toNumber asset.accumulatedDepreciation + calculateMonthlyDepreciation
              (asset.depreciationInput ((s.table .assetDepreciationEntry).entries.filter fun e =>
                e.2.assetId = assetId).length))) } : Asset) =
            { a with accumulatedDepreciation := ofNumber (round2
              (toNumber asset.accumulatedDepreciation + s.nextDepreciation assetId asset)) } := by
          intro a
          rw [hamount]
        exact .posted asset (.of_writes ht.1 hfound (hamount ▸ hpos) rfl (congrArg ofNumber hamount)
          (hstored asset) _)
      · rw [Db.find?_insert_of_ne (by decide), ht.1.find? (by decide), hfound] at hnone
        exact absurd hnone nofun
    · refine ⟨asset, hfound, hinUse, ?_⟩
      rw [← hamount]
      exact not_lt.mp hnone
  · intro he
    have htext := congrArg String.toList (Failure.http.inj he).2
    simp at htext

end Handler

/-! ## Sequences of runs -/

/-- How an asset is depreciated. -/
def Asset.terms (a : Asset) : Cents × Cents × ℕ × DepreciationMethod × Option ℚ :=
  (a.acquisitionCost, a.residualValue, a.usefulLifeMonths, a.depreciationMethod, a.depreciationRate)

/-- How an asset is depreciated, and how far it has been. -/
def Asset.figures (a : Asset) : Cents × Cents × Cents × ℕ × DepreciationMethod × Option ℚ :=
  (a.accumulatedDepreciation, a.terms)

/-- The assets are kept with their figures, and so are the entries. -/
structure Db.KeepsFigures (s t : Db) : Prop where
  assets : s.KeepsRows .asset (fun a a' : Asset => a'.figures = a.figures) t
  entries : ∀ id, t.depreciations id = s.depreciations id

namespace Db.KeepsFigures

variable {s t u : Db}

theorem of_agree (h : s.Agree [.asset, .assetDepreciationEntry] t) : s.KeepsFigures t where
  assets := KeepsRows.of_table_eq (R := fun a a' : Asset => a'.figures = a.figures)
    (fun _ => rfl) (h .asset (by decide))
  entries := by
    intro id
    unfold depreciations
    rw [h .assetDepreciationEntry (by decide)]

theorem trans (h : s.KeepsFigures t) (h' : t.KeepsFigures u) : s.KeepsFigures u where
  assets := h.assets.trans (fun _ _ _ hfirst hsecond => hsecond.trans hfirst) h'.assets
  entries := fun id => (h'.entries id).trans (h.entries id)

end Db.KeepsFigures

/-- A run of depreciation, or anything else that keeps the figures. -/
inductive DepreciationCall
  | depreciate (auth : Auth) (now : DateTime) (assetId : Id) (periodLabel : String)
  | other (p : Handler Unit) (h : p.Every Db.KeepsFigures)

namespace DepreciationCall

def handler : DepreciationCall → Handler Unit
  | depreciate auth now assetId periodLabel => do
    let _ ← processDepreciation auth now assetId periodLabel
  | other p _ => p

/-- A run for the asset, with success. -/
def succeeds (assetId : Id) (call : DepreciationCall) (s : Db) : Bool :=
  match call with
  | depreciate auth now id periodLabel =>
    decide (id = assetId) && ((processDepreciation auth now id periodLabel).run s).1.toBool
  | other _ _ => false

end DepreciationCall

/-- How many runs for the asset succeed. -/
def successes (assetId : Id) : List DepreciationCall → Db → ℕ
  | [], _ => 0
  | call :: calls, s =>
    (if call.succeeds assetId s then 1 else 0) + successes assetId calls (call.handler.run s).2

/-- The books of an asset: it has lost what its entries say, but no more than it may lose, and in its
useful life it has lost all of that. -/
structure Db.DepreciationSound (s : Db) (assetId : Id) (a : Asset) : Prop where
  found : s.find? .asset assetId = some a
  sum : a.accumulatedDepreciation = (s.depreciations assetId).sum
  floor : a.residualValue ≤ a.acquisitionCost - a.accumulatedDepreciation
  life : (s.depreciations assetId).length ≤ a.usefulLifeMonths
  last : (s.depreciations assetId).length = a.usefulLifeMonths →
    a.acquisitionCost - a.accumulatedDepreciation = a.residualValue

section Sequences

variable {s t : Db} {assetId : Id} {a : Asset}

theorem Asset.remaining_eq (a : Asset) (n : ℕ) : (a.depreciationInput n).remaining =
    toNumber (a.acquisitionCost - a.accumulatedDepreciation - a.residualValue) := by
  rw [toNumber_sub, toNumber_sub]
  rfl

theorem Db.DepreciationSound.keep (hs : s.DepreciationSound assetId a) (h : s.KeepsFigures t) :
    ∃ a', t.DepreciationSound assetId a' ∧ a'.terms = a.terms := by
  obtain ⟨a', hfound, hfigures⟩ := h.assets assetId a hs.found
  obtain ⟨haccumulated, hterms⟩ := Prod.mk.inj hfigures
  obtain ⟨hcost, hrest⟩ := Prod.mk.inj hterms
  obtain ⟨hresidual, hrest⟩ := Prod.mk.inj hrest
  obtain ⟨hlife, -⟩ := Prod.mk.inj hrest
  refine ⟨a', ⟨hfound, ?_, ?_, ?_, ?_⟩, hterms⟩
  · rw [h.entries, haccumulated]
    exact hs.sum
  · rw [hresidual, hcost, haccumulated]
    exact hs.floor
  · rw [h.entries, hlife]
    exact hs.life
  · rw [h.entries, hlife, hresidual, hcost, haccumulated]
    exact hs.last

/-- One run that succeeds. -/
theorem Db.DepreciationSound.depreciate (hs : s.DepreciationSound assetId a) {id : Id} {b : Asset}
    (h : s.Depreciates id b t) : ∃ a', t.DepreciationSound assetId a' ∧ a'.terms = a.terms := by
  have hasset := h.assets assetId
  have hentries := h.entries assetId
  by_cases hid : assetId = id
  · subst hid
    rw [if_pos rfl] at hasset hentries
    obtain rfl : b = a := Option.some.inj (h.found.symm.trans hs.found)
    have hwhole : WholeCent (b.depreciationInput (s.depreciations assetId).length).remaining := by
      rw [b.remaining_eq]
      exact wholeCent_toNumber _
    have hamount : toNumber (ofNumber (s.nextDepreciation assetId b)) =
        s.nextDepreciation assetId b :=
      (wholeCent_calculateMonthlyDepreciation _).toNumber_ofNumber
    have hpos := h.amount
    obtain ⟨hleft, -⟩ := (calculateMonthlyDepreciation_pos_iff hwhole).mp hpos
    have hle := calculateMonthlyDepreciation_le hwhole hleft.le
    change s.nextDepreciation assetId b ≤ _ at hle
    rw [b.remaining_eq] at hleft hle
    rw [← hamount, toNumber_le] at hle
    rw [toNumber_pos] at hleft
    have hshort : (s.depreciations assetId).length ≠ b.usefulLifeMonths := by
      intro hfull
      rw [hs.last hfull, sub_self] at hleft
      exact lt_irrefl 0 hleft
    have hlife := hs.life
    refine ⟨_, ⟨hasset, ?_, ?_, ?_, ?_⟩, rfl⟩
    · rw [hentries, List.sum_append, List.sum_singleton, ← hs.sum]
    · dsimp only
      linarith
    · rw [hentries, List.length_append, List.length_singleton]
      dsimp only
      omega
    · rw [hentries, List.length_append, List.length_singleton]
      dsimp only
      intro hfull
      have hfinal : (b.depreciationInput (s.depreciations assetId).length).IsFinalPeriod :=
        hfull.ge
      have hall : s.nextDepreciation assetId b = _ :=
        calculateMonthlyDepreciation_final (by rwa [b.remaining_eq, toNumber_pos]) hfinal hwhole
      rw [b.remaining_eq, ← hamount, toNumber_inj] at hall
      rw [hall]
      ring
  · rw [if_neg hid] at hasset hentries
    rw [List.append_nil] at hentries
    refine ⟨a, ⟨hasset.trans hs.found, ?_, hs.floor, ?_, ?_⟩, rfl⟩
    · rw [hentries]
      exact hs.sum
    · rw [hentries]
      exact hs.life
    · rw [hentries]
      exact hs.last

/-- However a run ends. -/
theorem DepreciationEnd.step {id : Id} {r : Except Failure Id} (h : DepreciationEnd s id r t)
    (hs : s.DepreciationSound assetId a) :
    ∃ a', t.DepreciationSound assetId a' ∧ a'.terms = a.terms ∧
      (t.depreciations assetId).length =
        (s.depreciations assetId).length + if (decide (id = assetId) && r.toBool) = true then 1 else 0 := by
  cases h with
  | failed hkept _ =>
    obtain ⟨a', ha', hterms⟩ := hs.keep (.of_agree hkept)
    refine ⟨a', ha', hterms, ?_⟩
    rw [(Db.KeepsFigures.of_agree hkept).entries]
    simp [Except.toBool]
  | posted b hposted =>
    obtain ⟨a', ha', hterms⟩ := hs.depreciate hposted
    refine ⟨a', ha', hterms, ?_⟩
    rw [hposted.entries, List.length_append]
    by_cases hid : id = assetId
    · simp [hid, Except.toBool]
    · simp [hid, Ne.symm hid]

/-- One call. -/
theorem DepreciationCall.step (call : DepreciationCall) (hs : s.DepreciationSound assetId a) :
    ∃ a', (call.handler.run s).2.DepreciationSound assetId a' ∧ a'.terms = a.terms ∧
      ((call.handler.run s).2.depreciations assetId).length = (s.depreciations assetId).length +
        if call.succeeds assetId s then 1 else 0 := by
  cases call with
  | depreciate auth now id periodLabel =>
    have hrun : ((depreciate auth now id periodLabel).handler.run s).2 =
        ((processDepreciation auth now id periodLabel).run s).2 := by
      unfold handler
      rw [run_bind]
      cases (processDepreciation auth now id periodLabel).run s with
      | mk r t => cases r <;> rfl
    rw [hrun]
    exact (processDepreciation_ends s auth now id periodLabel).step hs
  | other p h =>
    have hkept := Every.run (fun s => Db.KeepsFigures.of_agree (.refl s)) Db.KeepsFigures.trans h s
    obtain ⟨a', ha', hterms⟩ := hs.keep hkept
    exact ⟨a', ha', hterms, congrArg List.length (hkept.entries assetId)⟩

/-- Sequences of calls. -/
theorem Db.DepreciationSound.run (hs : s.DepreciationSound assetId a)
    (calls : List DepreciationCall) :
    ∃ a', (runAll (calls.map DepreciationCall.handler) s).DepreciationSound assetId a' ∧
      a'.terms = a.terms ∧
      ((runAll (calls.map DepreciationCall.handler) s).depreciations assetId).length =
        (s.depreciations assetId).length + successes assetId calls s := by
  induction calls generalizing s a with
  | nil => exact ⟨a, hs, rfl, rfl⟩
  | cons call calls ih =>
    obtain ⟨b, hb, hterms, hlength⟩ := call.step hs
    obtain ⟨c, hc, hterms', hlength'⟩ := ih hb
    refine ⟨c, hc, hterms'.trans hterms, ?_⟩
    unfold successes
    rw [← Nat.add_assoc, ← hlength]
    exact hlength'

end Sequences

/-! ## When an asset stops to lose value -/

/-- A run finds an amount, or nothing that is left to depreciate: the asset is disposed, it has
reached its residual value, its last month has come, or the method takes half a cent at least. -/
def Asset.Progresses (a : Asset) (monthsElapsed : ℕ) : Prop :=
  a.status = .disposed ∨ a.acquisitionCost - a.accumulatedDepreciation = a.residualValue ∨
    (a.depreciationInput monthsElapsed).IsFinalPeriod ∨
      1 / 200 ≤ (a.depreciationInput monthsElapsed).monthlyAmount

instance (a : Asset) (monthsElapsed : ℕ) : Decidable (a.Progresses monthsElapsed) :=
  inferInstanceAs (Decidable (_ ∨ _ ∨ _ ∨ _))

section Refusals

variable {s : Db} {assetId : Id} {a : Asset}

/-- The straight line takes off the same every month. -/
theorem Asset.progresses_straightLine (hmethod : a.depreciationMethod = .straightLine)
    (hlife : 0 < a.usefulLifeMonths)
    (hbase : (a.usefulLifeMonths : Cents) ≤ 2 * (a.acquisitionCost - a.residualValue)) (n : ℕ) :
    a.Progresses n := by
  right; right; right
  have hbase' : (a.usefulLifeMonths : ℚ) ≤ 2 * ((a.acquisitionCost : ℚ) - a.residualValue) := by
    exact_mod_cast hbase
  have hlife' : (0 : ℚ) < a.usefulLifeMonths := by exact_mod_cast hlife
  unfold DepreciationInput.monthlyAmount Asset.depreciationInput
  simp only [hmethod]
  rw [le_div_iff₀ hlife', ← toNumber_sub]
  unfold toNumber
  push_cast
  linarith

theorem run_processDepreciation_refused (hfound : s.find? .asset assetId = some a)
    (hinUse : a.status ≠ .disposed) {periodLabel : String} (hlabel : periodLabel ≠ "")
    (hfresh : ∀ e ∈ (s.table .assetDepreciationEntry).values, e.periodLabel ≠ periodLabel)
    (hnone : s.nextDepreciation assetId a ≤ 0) (userId : Id) (now : DateTime) :
    ((processDepreciation ⟨a.institutionId, userId⟩ now assetId periodLabel).run s).1 =
      .error fullyDepreciated := by
  have hread : (s.find? .asset assetId).filter (fun b => b.institutionId = a.institutionId) =
      some a := by
    rw [hfound]
    exact Option.filter_eq_some_iff.mpr ⟨rfl, decide_eq_true rfl⟩
  have hnew : ((s.table .assetDepreciationEntry).entries.find? fun e =>
      decide (e.2.assetId = assetId ∧ e.2.periodLabel = periodLabel)).isNone = true := by
    rw [Option.isNone_iff_eq_none, List.find?_eq_none]
    intro e he hfinds
    exact hfresh e.2 (List.mem_map_of_mem he) (of_decide_eq_true hfinds).2
  have hamount : calculateMonthlyDepreciation (a.depreciationInput
      ((s.table .assetDepreciationEntry).entries.filter fun e => e.2.assetId = assetId).length) ≤ 0 := by
    rw [count_depreciations]
    exact hnone
  suffices h : (processDepreciation ⟨a.institutionId, userId⟩ now assetId periodLabel).Ends
      (fun r _ => r = .error fullyDepreciated) s from h
  refine Ends.require (fun _ => ?_) fun h => absurd hlabel h
  refine ends_query (Ends.orFail (fun b hb => ?_) fun h => absurd (hread.symm.trans h) nofun)
  obtain rfl : b = a := Option.some.inj (hb.symm.trans hread)
  refine Ends.require (fun _ => ?_) fun h => absurd hinUse h
  refine ends_query (Ends.require (fun _ => ?_) fun h => absurd hnew h)
  exact ends_query (Ends.require (fun hpos => absurd hamount (not_le.mpr hpos)) fun _ => rfl)

/-- A label that no entry has. -/
theorem exists_fresh_label (labels : List String) : ∃ label ≠ "", label ∉ labels := by
  obtain ⟨label, hlabel⟩ := Infinite.exists_notMem_finset (insert "" labels.toFinset)
  rw [Finset.mem_insert, List.mem_toFinset, not_or] at hlabel
  exact ⟨label, hlabel⟩

/-- A run is refused for an asset that has not reached its residual value if and only if the asset
does not progress. -/
theorem Db.DepreciationSound.refused_iff (hs : s.DepreciationSound assetId a) :
    (∀ auth now periodLabel, ((processDepreciation auth now assetId periodLabel).run s).1 =
        .error fullyDepreciated → a.acquisitionCost - a.accumulatedDepreciation = a.residualValue) ↔
      a.Progresses (s.depreciations assetId).length := by
  have hwhole : WholeCent (a.depreciationInput (s.depreciations assetId).length).remaining := by
    rw [a.remaining_eq]
    exact wholeCent_toNumber _
  have hamount : 0 < s.nextDepreciation assetId a ↔ _ := calculateMonthlyDepreciation_pos_iff hwhole
  rw [a.remaining_eq, toNumber_pos, sub_pos] at hamount
  constructor
  · intro hrefused
    by_contra hstalls
    simp only [Asset.Progresses, not_or] at hstalls
    obtain ⟨hinUse, hvalue, hfinal, hmonthly⟩ := hstalls
    have hnone : s.nextDepreciation assetId a ≤ 0 := by
      rw [← not_lt, hamount]
      rintro ⟨-, hmonth | hmonth⟩
      · exact hfinal hmonth
      · exact hmonthly hmonth
    obtain ⟨periodLabel, hlabel, hfresh⟩ := exists_fresh_label
      ((s.table .assetDepreciationEntry).values.map AssetDepreciationEntry.periodLabel)
    have hanswer := run_processDepreciation_refused hs.found hinUse hlabel
      (fun e he heq => hfresh (heq ▸ List.mem_map_of_mem he)) hnone 0 0
    exact hvalue (hrefused _ _ _ hanswer)
  · intro hprogresses auth now periodLabel hanswer
    have hend := processDepreciation_ends s auth now assetId periodLabel
    unfold Ends at hend
    rw [hanswer] at hend
    cases hend with
    | failed _ hrefused =>
      obtain ⟨b, hb, hinUse, hnone⟩ := hrefused rfl
      obtain rfl : b = a := Option.some.inj (hb.symm.trans hs.found)
      rcases hprogresses with hdisposed | hvalue | hmonth
      · exact absurd hdisposed hinUse
      · exact hvalue
      · refine le_antisymm (not_lt.mp fun hleft => ?_) hs.floor
        exact absurd (hamount.mpr ⟨hleft, hmonth⟩) (not_lt.mpr hnone)

end Refusals

end NexusEfos
