/-
Processes that start in the middle of a run.

What a process has read with its first statement may decide what it does later, whatever
the others have done in between.  `Starts` judges a process by the state in which it starts,
and `Pool.run_starts` is what it then does at any later point of a run.  `Pool.run_keeps` is
about the processes that start after some point: what each of them keeps from there, a run of
them keeps.
-/
import NexusEfos.Library.Interleaving

namespace NexusEfos

namespace Proc

variable {ℓ σ ε α β : Type}

/-- A process that starts in a state with `C` does what `D` has for that state. -/
def Starts (C : σ → Prop) (D : σ → ℓ → σ → σ → Prop) : Proc ℓ σ ε α → Prop
  | done _ => True
  | stmt lab act k => ∀ s, C s → D s lab s (act s).2 ∧ (k (act s).1).EveryStep (D s)

namespace Starts

variable {C : σ → Prop} {D : σ → ℓ → σ → σ → Prop}

/-- What the process reads does not matter. -/
theorem of_everyStep {p : Proc ℓ σ ε α} (h : ∀ s, C s → p.EveryStep (D s)) : p.Starts C D := by
  cases p with
  | done r => trivial
  | stmt lab act k => exact fun s hs => ⟨(h s hs).1 s, (h s hs).2 _⟩

theorem imp {C' : σ → Prop} {p : Proc ℓ σ ε α} (hp : p.Starts C D) (h : ∀ s, C' s → C s) :
    p.Starts C' D := by
  cases p with
  | done r => trivial
  | stmt lab act k => exact fun s hs => hp s (h s hs)

theorem bind {p : Proc ℓ σ ε α} {f : α → Proc ℓ σ ε β} (hp : p.Starts C D)
    (hf : ∀ s, C s → ∀ a, (f a).EveryStep (D s)) : (p >>= f).Starts C D := by
  cases p with
  | done r =>
    cases r with
    | ok a => exact of_everyStep fun s hs => hf s hs a
    | error e => trivial
  | stmt lab act k => exact fun s hs => ⟨(hp s hs).1, (hp s hs).2.bind (hf s hs)⟩

theorem require_bind {p : Prop} [Decidable p] {e : ε} {f : Unit → Proc ℓ σ ε α}
    (hf : p → (f ()).Starts C D) : (Proc.require p e >>= f).Starts C D := by
  by_cases h : p
  · rw [require_pos h]
    exact hf h
  · rw [require_neg h]
    trivial

/-- The first statement, and what follows upon its answer. -/
theorem exec_bind {lab : ℓ} {act : σ → β × σ} {k : β → Proc ℓ σ ε α}
    (hfirst : ∀ s, C s → D s lab s (act s).2)
    (hk : ∀ s, C s → (k (act s).1).EveryStep (D s)) :
    (Proc.exec lab act >>= k).Starts C D := fun s hs => ⟨hfirst s hs, hk s hs⟩

end Starts

end Proc

namespace Pool

variable {ι ℓ σ ε α : Type} [DecidableEq ι]

/-- The state in which a process has started, or would start now. -/
def startOf (c : Pool ι ℓ σ ε α) (sched : List ι) (i : ι) : σ :=
  (c.run (sched.takeWhile (· ≠ i))).state

/-- What the next statement of a process does, if it has one. -/
def StepIs (D : ℓ → σ → σ → Prop) (c : Pool ι ℓ σ ε α) (i : ι) : Prop :=
  match c.threads i with
  | .done _ => True
  | .stmt lab act _ => D lab c.state (act c.state).2

omit [DecidableEq ι] in
theorem stepIs_of_everyStep {D : ℓ → σ → σ → Prop} {c : Pool ι ℓ σ ε α} {i : ι}
    (h : (c.threads i).EveryStep D) : c.StepIs D i := by
  unfold StepIs
  cases hth : c.threads i with
  | done r => trivial
  | stmt lab act k =>
    rw [hth] at h
    exact h.1 c.state

theorem StepIs.step {D : ℓ → σ → σ → Prop} {c : Pool ι ℓ σ ε α} {i : ι} (h : c.StepIs D i) :
    (c.step i).state = c.state ∨ ∃ lab, D lab c.state (c.step i).state := by
  unfold StepIs at h
  cases hth : c.threads i with
  | done r =>
    left
    rw [step_done hth]
  | stmt lab act k =>
    right
    rw [hth] at h
    refine ⟨lab, ?_⟩
    rw [step_stmt hth]
    exact h

theorem startOf_append {c : Pool ι ℓ σ ε α} {before after : List ι} {i : ι} (hi : i ∉ before) :
    c.startOf (before ++ after) i = (c.run (before ++ after.takeWhile (· ≠ i))).state := by
  have hall : ∀ j ∈ before, decide (j ≠ i) = true := by
    intro j hj
    rw [decide_eq_true_iff]
    intro heq
    exact hi (heq ▸ hj)
  unfold startOf
  rw [List.takeWhile_append_of_pos hall]

theorem startOf_of_not_mem {c : Pool ι ℓ σ ε α} {sched : List ι} {i : ι} (hi : i ∉ sched) :
    c.startOf sched i = (c.run sched).state := by
  have h : c.startOf (sched ++ []) i = _ := startOf_append hi
  rwa [List.takeWhile_nil, List.append_nil] at h

/-- A process has not started yet, or has started where it was scheduled first. -/
theorem startOf_cases (c : Pool ι ℓ σ ε α) (sched : List ι) (i : ι) :
    (i ∉ sched ∧ c.startOf sched i = (c.run sched).state) ∨
      ∃ before after, sched = before ++ i :: after ∧ i ∉ before ∧
        c.startOf sched i = (c.run before).state := by
  by_cases hi : i ∈ sched
  · right
    obtain ⟨before, after, rfl, hnot⟩ := List.eq_append_cons_of_mem hi
    refine ⟨before, after, rfl, hnot, ?_⟩
    have hnone : (i :: after).takeWhile (· ≠ i) = [] := List.takeWhile_cons_of_neg (by simp)
    rw [startOf_append hnot, hnone, List.append_nil]
  · exact .inl ⟨hi, startOf_of_not_mem hi⟩

/-- A process that is not scheduled stays where it is. -/
theorem threads_run_of_not_mem (c : Pool ι ℓ σ ε α) {sched : List ι} {i : ι} (hi : i ∉ sched) :
    (c.run sched).threads i = c.threads i := by
  induction sched generalizing c with
  | nil => rfl
  | cons j sched ih =>
    rw [List.mem_cons, not_or] at hi
    rw [run_cons, ih _ hi.2, step_eq_next]
    exact Function.update_of_ne hi.1 _ _

/-- The others do not change what a process will do. -/
theorem threads_run_everyStep {D : ℓ → σ → σ → Prop} {c : Pool ι ℓ σ ε α} {i : ι}
    (h : (c.threads i).EveryStep D) (sched : List ι) : ((c.run sched).threads i).EveryStep D := by
  induction sched generalizing c with
  | nil => exact h
  | cons j sched ih =>
    apply ih
    by_cases hj : i = j
    · subst hj
      cases hth : c.threads i with
      | done r =>
        rw [step_done hth]
        exact h
      | stmt lab act k =>
        rw [hth] at h
        rw [step_stmt hth]
        show (Function.update c.threads i _ i).EveryStep D
        rw [Function.update_self]
        exact h.2 _
    · rw [step_eq_next]
      show (Function.update c.threads j _ i).EveryStep D
      rw [Function.update_of_ne hj]
      exact h

section Starts

variable {C : σ → Prop} {D : σ → ℓ → σ → σ → Prop} {c : Pool ι ℓ σ ε α}

/-- What a process does at any point of a run, it does for the state in which it has started. -/
theorem run_starts {sched : List ι} {i : ι} (h : (c.threads i).Starts C D)
    (hC : C (c.startOf sched i)) : (c.run sched).StepIs (D (c.startOf sched i)) i := by
  have hfresh : ∀ before, i ∉ before → C (c.run before).state → ∀ after,
      (c.run (before ++ i :: after)).StepIs (D (c.run before).state) i := by
    intro before hi hstart after
    rw [run_append, run_cons]
    apply stepIs_of_everyStep
    apply threads_run_everyStep
    have hsame := threads_run_of_not_mem c hi
    rw [step_eq_next]
    show (Function.update (c.run before).threads i _ i).EveryStep _
    rw [Function.update_self, hsame]
    cases hth : c.threads i with
    | done r => trivial
    | stmt lab act k =>
      rw [hth] at h
      exact (h _ hstart).2
  rcases c.startOf_cases sched i with ⟨hi, hstart⟩ | ⟨before, after, rfl, hnot, hstart⟩
  · rw [hstart] at hC ⊢
    unfold StepIs
    rw [threads_run_of_not_mem c hi]
    cases hth : c.threads i with
    | done r => trivial
    | stmt lab act k =>
      rw [hth] at h
      exact (h _ hC).1
  · rw [hstart] at hC ⊢
    exact hfresh before hnot hC after

/-- Processes that start after some point keep what each of them keeps from where it starts. -/
theorem run_keeps {K : σ → σ → Prop} (hrefl : ∀ s, K s s)
    (hK : ∀ t s lab u v, D s lab u v → K t s → K t u → K t v) {before after : List ι}
    (h : ∀ xs i, xs ++ [i] <+: after → i ∉ before ∧
      (c.run (before ++ xs)).StepIs (D (c.startOf (before ++ xs) i)) i) :
    K (c.run before).state (c.run (before ++ after)).state := by
  have hall : ∀ ys, ys <+: after → K (c.run before).state (c.run (before ++ ys)).state := by
    induction after using List.reverseRecOn with
    | nil =>
      intro ys hys
      rw [List.prefix_nil.mp hys, List.append_nil]
      exact hrefl _
    | append_singleton xs i ih =>
      have hprefixes := ih fun ys j hys => h ys j (hys.trans (List.prefix_append xs [i]))
      intro ys hys
      rcases List.prefix_concat_iff.mp hys with rfl | hshorter
      · obtain ⟨hi, hstep⟩ := h xs i (List.prefix_refl _)
        rw [startOf_append hi] at hstep
        have hnow := hprefixes xs (List.prefix_refl xs)
        have hstart := hprefixes _ (List.takeWhile_prefix (l := xs) (· ≠ i))
        rw [← List.append_assoc, run_append]
        show K _ ((c.run (before ++ xs)).step i).state
        rcases hstep.step with hsame | ⟨lab, hD⟩
        · rwa [hsame]
        · exact hK _ _ lab _ _ hD hstart hnow
      · exact hprefixes ys hshorter
  exact hall after (List.prefix_refl after)

end Starts

end Pool

end NexusEfos
