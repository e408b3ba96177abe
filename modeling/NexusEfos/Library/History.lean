/-
The history of a schedule.

A statement of a pool may be an event: `record` says which events it is, from its label and
the states before and after.  The history of a schedule lists the events of its statements in
their order.  It is no part of the state and no process sees it, so it can be spoken about in
an invariant and in the condition of a run without a change to the processes.

`run_history` is the rule of the file: an invariant of the state and the events so far that
every statement keeps.  In `Follows.run_history` the processes follow a protocol, and what a
process has learnt from the state may be used later as far as the events bear it out.
-/
import NexusEfos.Library.Interleaving

namespace NexusEfos
namespace Pool

variable {ι ℓ σ ε α κ M : Type} [DecidableEq ι]

/-- The events of the next statement of process `i`. -/
def events (record : ℓ → σ → σ → List κ) (c : Pool ι ℓ σ ε α) (i : ι) : List κ :=
  match c.threads i with
  | .done _ => []
  | .stmt lab act _ => record lab c.state (act c.state).2

/-- The events of a schedule. -/
def history (record : ℓ → σ → σ → List κ) : Pool ι ℓ σ ε α → List ι → List κ
  | _, [] => []
  | c, i :: is => c.events record i ++ history record (c.step i) is

/-- Every statement of a schedule satisfies `A` when it is executed, with `past` and what has
been recorded since as the events before it. -/
def AllowedAfter (record : ℓ → σ → σ → List κ) (A : List κ → ℓ → σ → Prop) (past : List κ) :
    Pool ι ℓ σ ε α → List ι → Prop
  | _, [] => True
  | c, i :: is => c.Meets (A past) i ∧
      AllowedAfter record A (past ++ c.events record i) (c.step i) is

instance decidableAllowedAfter (record : ℓ → σ → σ → List κ) (A : List κ → ℓ → σ → Prop)
    [∀ h lab s, Decidable (A h lab s)] (past : List κ) :
    (c : Pool ι ℓ σ ε α) → (sched : List ι) → Decidable (c.AllowedAfter record A past sched)
  | _, [] => isTrue trivial
  | c, i :: is =>
    have := decidableAllowedAfter record A (past ++ c.events record i) (c.step i) is
    inferInstanceAs (Decidable (c.Meets (A past) i ∧
      AllowedAfter record A (past ++ c.events record i) (c.step i) is))

variable {record : ℓ → σ → σ → List κ} {A : List κ → ℓ → σ → Prop}

@[simp] theorem history_nil (c : Pool ι ℓ σ ε α) : c.history record [] = [] := rfl

@[simp] theorem history_cons (c : Pool ι ℓ σ ε α) (i : ι) (is : List ι) :
    c.history record (i :: is) = c.events record i ++ (c.step i).history record is := rfl

omit [DecidableEq ι] in
theorem events_done {c : Pool ι ℓ σ ε α} {i : ι} {r : Except ε α} (h : c.threads i = .done r) :
    c.events record i = [] := by
  unfold events
  rw [h]

omit [DecidableEq ι] in
theorem events_stmt {c : Pool ι ℓ σ ε α} {i : ι} {β : Type} {lab : ℓ} {act : σ → β × σ}
    {k : β → Proc ℓ σ ε α} (h : c.threads i = .stmt lab act k) :
    c.events record i = record lab c.state (act c.state).2 := by
  unfold events
  rw [h]

theorem history_append (c : Pool ι ℓ σ ε α) (is js : List ι) :
    c.history record (is ++ js) = c.history record is ++ (c.run is).history record js := by
  induction is generalizing c with
  | nil => rfl
  | cons i is ih =>
    rw [List.cons_append, history_cons, history_cons, ih, run_cons, List.append_assoc]

theorem allowedAfter_append {past : List κ} {c : Pool ι ℓ σ ε α} {is js : List ι} :
    c.AllowedAfter record A past (is ++ js) ↔ c.AllowedAfter record A past is ∧
      (c.run is).AllowedAfter record A (past ++ c.history record is) js := by
  induction is generalizing c past with
  | nil =>
    rw [history_nil, List.append_nil]
    exact ⟨fun h => ⟨trivial, h⟩, fun h => h.2⟩
  | cons i is ih =>
    show c.Meets (A past) i ∧ (c.step i).AllowedAfter record A (past ++ c.events record i)
      (is ++ js) ↔ (c.Meets (A past) i ∧ (c.step i).AllowedAfter record A
        (past ++ c.events record i) is) ∧ _
    rw [ih, history_cons, run_cons, and_assoc, List.append_assoc]

theorem allowedAfter_true (past : List κ) (c : Pool ι ℓ σ ε α) (sched : List ι) :
    c.AllowedAfter record (fun _ _ _ => True) past sched := by
  induction sched generalizing c past with
  | nil => trivial
  | cons i is ih =>
    refine ⟨?_, ih _ _⟩
    unfold Meets
    split <;> trivial

/-- A condition that does not look at the events. -/
theorem allowedAfter_of_allowed {A : ℓ → σ → Prop} {c : Pool ι ℓ σ ε α} {sched : List ι}
    (h : c.Allowed A sched) (past : List κ) :
    c.AllowedAfter record (fun _ => A) past sched := by
  induction sched generalizing c past with
  | nil => trivial
  | cons i is ih => exact ⟨h.1, ih h.2 _⟩

/-! ## Invariants of the state and the events -/

/-- What every statement that satisfies the condition keeps holds after every schedule of such
statements. -/
theorem run_history {D : ℓ → σ → σ → Prop} {J : σ → List κ → Prop}
    (hJ : ∀ lab s s' h, D lab s s' → A h lab s → J s h → J s' (h ++ record lab s s'))
    {c : Pool ι ℓ σ ε α} (hc : ∀ i, (c.threads i).EveryStep D) {past : List κ}
    (h0 : J c.state past) {sched : List ι} (hA : c.AllowedAfter record A past sched) :
    J (c.run sched).state (past ++ c.history record sched) := by
  induction sched generalizing c past with
  | nil =>
    rw [history_nil, List.append_nil]
    exact h0
  | cons i is ih =>
    obtain ⟨hmeets, hrest⟩ := hA
    rw [run_cons, history_cons, ← List.append_assoc]
    apply ih (step_everyStep hc i).2 ?_ hrest
    cases hth : c.threads i with
    | done r =>
      rw [step_done hth, events_done hth, List.append_nil]
      exact h0
    | stmt lab act k =>
      have hi := hc i
      rw [hth] at hi
      rw [Meets, hth] at hmeets
      rw [step_stmt hth, events_stmt hth]
      exact hJ lab _ _ past (hi.1 _) hmeets h0

/-- What the last statement of such a schedule does, if there is one. -/
theorem last_step_history {D : ℓ → σ → σ → Prop} {J : σ → List κ → Prop}
    (hJ : ∀ lab s s' h, D lab s s' → A h lab s → J s h → J s' (h ++ record lab s s'))
    {c : Pool ι ℓ σ ε α} (hc : ∀ i, (c.threads i).EveryStep D) {past : List κ}
    (h0 : J c.state past) {before : List ι} {i : ι}
    (hA : c.AllowedAfter record A past (before ++ [i])) :
    ((c.run (before ++ [i])).state = (c.run before).state ∧
        past ++ c.history record (before ++ [i]) = past ++ c.history record before) ∨
      ∃ lab, D lab (c.run before).state (c.run (before ++ [i])).state ∧
        A (past ++ c.history record before) lab (c.run before).state ∧
        J (c.run before).state (past ++ c.history record before) ∧
        past ++ c.history record (before ++ [i]) = past ++ c.history record before ++
          record lab (c.run before).state (c.run (before ++ [i])).state := by
  obtain ⟨hbefore, hmeets, -⟩ := allowedAfter_append.mp hA
  have hstate := run_history hJ hc h0 hbefore
  rw [history_append, run_append, run_cons, run_nil, history_cons, history_nil, List.append_nil,
    ← List.append_assoc]
  cases hth : (c.run before).threads i with
  | done r =>
    left
    rw [step_done hth, events_done hth, List.append_nil]
    exact ⟨rfl, rfl⟩
  | stmt lab act k =>
    right
    have hi := run_everyStep hc before i
    rw [hth] at hi
    rw [Meets, hth] at hmeets
    rw [step_stmt hth, events_stmt hth]
    exact ⟨lab, hi.1 _, hmeets, hstate, rfl⟩

section Follows

/-! ## Processes that follow a protocol

`K d h` says that the events `h` bear out what a process has learnt that owes `d`; more events
do so as well. -/

variable {P : Protocol ℓ σ M} {Q : M → Except ε α → Prop} {J : σ → List κ → Prop}
  {K : M → List κ → Prop} {c : Pool ι ℓ σ ε α} {d : ι → M} {past : List κ}

theorem Follows.run_learnt (hK : ∀ d h new, K d h → K d (h ++ new))
    (hJ : ∀ lab s d s' d' h, P.guar lab s d s' d' → P.rely s s' → A h lab s → J s h → K d h →
      J s' (h ++ record lab s s') ∧ K d' (h ++ record lab s s'))
    (hc : c.Follows P Q d) (h0 : J c.state past) (hd : ∀ i, K (d i) past) {sched : List ι}
    (hA : c.AllowedAfter record A past sched) :
    ∃ d', (c.run sched).Follows P Q d' ∧ (∀ i, K (d' i) (past ++ c.history record sched)) ∧
      J (c.run sched).state (past ++ c.history record sched) := by
  induction sched generalizing c d past with
  | nil =>
    rw [history_nil, List.append_nil]
    exact ⟨d, hc, hd, h0⟩
  | cons i is ih =>
    obtain ⟨hmeets, hrest⟩ := hA
    rw [run_cons, history_cons, ← List.append_assoc]
    cases hth : c.threads i with
    | done r =>
      rw [step_done hth, events_done hth, List.append_nil] at *
      exact ih hc h0 hd hrest
    | stmt lab act k =>
      have hi := hc i
      rw [hth] at hi
      obtain ⟨d', hrely, hguar, hk⟩ := hi c.state (P.refl _)
      rw [Meets, hth] at hmeets
      rw [step_stmt hth, events_stmt hth] at *
      obtain ⟨hstate, hlearnt⟩ := hJ lab _ _ _ _ past hguar hrely hmeets h0 (hd i)
      apply ih (d := Function.update d i d') ?_ hstate ?_ hrest
      · intro j
        by_cases hj : j = i
        · subst hj
          simpa using hk
        · simpa [hj] using (hc j).of_rely hrely
      · intro j
        by_cases hj : j = i
        · subst hj
          rw [Function.update_self]
          exact hlearnt
        · rw [Function.update_of_ne hj]
          exact hK _ _ _ (hd j)

theorem Follows.run_history (hK : ∀ d h new, K d h → K d (h ++ new))
    (hJ : ∀ lab s d s' d' h, P.guar lab s d s' d' → P.rely s s' → A h lab s → J s h → K d h →
      J s' (h ++ record lab s s') ∧ K d' (h ++ record lab s s'))
    (hc : c.Follows P Q d) (h0 : J c.state past) (hd : ∀ i, K (d i) past) {sched : List ι}
    (hA : c.AllowedAfter record A past sched) :
    J (c.run sched).state (past ++ c.history record sched) := by
  obtain ⟨_, -, -, hstate⟩ := hc.run_learnt hK hJ h0 hd hA
  exact hstate

/-- An invariant of the state, of what every process owes, and of the events.  A process that is
not scheduled owes what it did. -/
theorem Follows.run_debts {I : σ → (ι → M) → List κ → Prop}
    (hI : ∀ i lab s d s' d' h, P.guar lab s (d i) s' d' → P.rely s s' → A h lab s → I s d h →
      I s' (Function.update d i d') (h ++ record lab s s'))
    (hc : c.Follows P Q d) (h0 : I c.state d past) {sched : List ι}
    (hA : c.AllowedAfter record A past sched) :
    ∃ d', (c.run sched).Follows P Q d' ∧ (∀ i, i ∉ sched → d' i = d i) ∧
      I (c.run sched).state d' (past ++ c.history record sched) := by
  induction sched generalizing c d past with
  | nil =>
    rw [history_nil, List.append_nil]
    exact ⟨d, hc, fun _ _ => rfl, h0⟩
  | cons i is ih =>
    obtain ⟨hmeets, hrest⟩ := hA
    rw [run_cons, history_cons, ← List.append_assoc]
    cases hth : c.threads i with
    | done r =>
      rw [step_done hth, events_done hth, List.append_nil] at *
      obtain ⟨d', hrun, hkept, hend⟩ := ih hc h0 hrest
      exact ⟨d', hrun, fun j hj => hkept j fun hmem => hj (List.mem_cons_of_mem i hmem), hend⟩
    | stmt lab act k =>
      have hi := hc i
      rw [hth] at hi
      obtain ⟨d₁, hrely, hguar, hk⟩ := hi c.state (P.refl _)
      rw [Meets, hth] at hmeets
      rw [step_stmt hth, events_stmt hth] at *
      have hnow := hI i lab _ d _ d₁ past hguar hrely hmeets h0
      have hnext : (⟨Function.update c.threads i (k (act c.state).1), (act c.state).2⟩ :
          Pool ι ℓ σ ε α).Follows P Q (Function.update d i d₁) := by
        intro j
        by_cases hj : j = i
        · subst hj
          simpa using hk
        · simpa [hj] using (hc j).of_rely hrely
      obtain ⟨d', hrun, hkept, hend⟩ := ih hnext hnow hrest
      refine ⟨d', hrun, ?_, hend⟩
      intro j hj
      rw [List.mem_cons, not_or] at hj
      rw [hkept j hj.2, Function.update_of_ne hj.1]

/-- An invariant of the state, of the total of what the processes owe, and of the events. -/
theorem Follows.run_totals [Fintype ι] [AddCommMonoid M] {I : σ → M → List κ → Prop}
    (hI : ∀ lab s m s' m' o h, P.guar lab s m s' m' → P.rely s s' → A h lab s → I s (o + m) h →
      I s' (o + m') (h ++ record lab s s'))
    (hc : c.Follows P Q d) (h0 : I c.state (∑ i, d i) past) {sched : List ι}
    (hA : c.AllowedAfter record A past sched) :
    ∃ d', (c.run sched).Follows P Q d' ∧
      I (c.run sched).state (∑ i, d' i) (past ++ c.history record sched) := by
  have hstep : ∀ i lab s (d : ι → M) s' d' h, P.guar lab s (d i) s' d' → P.rely s s' → A h lab s →
      I s (∑ j, d j) h → I s' (∑ j, Function.update d i d' j) (h ++ record lab s s') := by
    intro i lab s d s' d' h hguar hrely hlab hs
    obtain ⟨o, hsum, hsum'⟩ := exists_sum_update d i
    rw [hsum] at hs
    rw [hsum']
    exact hI lab s (d i) s' d' o h hguar hrely hlab hs
  obtain ⟨d', hrun, -, hend⟩ := hc.run_debts hstep h0 hA
  exact ⟨d', hrun, hend⟩

/-- What the last statement of such a schedule does, if there is one. -/
theorem Follows.last_step_history (hK : ∀ d h new, K d h → K d (h ++ new))
    (hJ : ∀ lab s d s' d' h, P.guar lab s d s' d' → P.rely s s' → A h lab s → J s h → K d h →
      J s' (h ++ record lab s s') ∧ K d' (h ++ record lab s s'))
    (hc : c.Follows P Q d) (h0 : J c.state past) (hd : ∀ i, K (d i) past) {before : List ι} {i : ι}
    (hA : c.AllowedAfter record A past (before ++ [i])) :
    (c.run (before ++ [i])).state = (c.run before).state ∨
      ∃ lab d d', P.guar lab (c.run before).state d (c.run (before ++ [i])).state d' ∧
        A (past ++ c.history record before) lab (c.run before).state ∧
        J (c.run before).state (past ++ c.history record before) := by
  obtain ⟨hbefore, hmeets, -⟩ := allowedAfter_append.mp hA
  obtain ⟨d₁, hrun, -, hstate⟩ := hc.run_learnt hK hJ h0 hd hbefore
  rw [run_append]
  rcases hrun.step_cases i with hsame | ⟨lab, d', hlab, hguar, -, -⟩
  · exact .inl (congrArg state hsame)
  · exact .inr ⟨lab, d₁ i, d', hguar, hlab _ hmeets, hstate⟩

end Follows

end Pool
end NexusEfos
