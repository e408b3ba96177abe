/-
Pools of processes, and what can be said about them one process at a time.

A `Pool` is a family of processes over a shared state.  A schedule is a list of
indices, each of which lets one process execute its next statement, so a
statement about every schedule is a statement about every interleaving.

`Follows` judges a process alone.  `rely` is a preorder that says how the state
may have moved since the process last looked at it, `guar` says what one
statement may do, and a debt in a monoid records what a process still has to do:
the sum of a conserved quantity may be off by the debt of a process that is
between two of its statements.  `Pool.run_follows` is the theorem of the file.
If every process follows the protocol, an invariant of the state and the total
debt that each guaranteed step preserves holds after every schedule.  A process
executed alone is the special case `Follows.run`.
-/
import NexusEfos.Library.Process
import Mathlib.Algebra.BigOperators.Group.Finset.Piecewise

namespace NexusEfos

open Finset

/-- The rules of a pool.  `rely` is how the state may move while a process waits,
and `guar` is what one statement may do to the state and to the debt of its
process. -/
structure Protocol (ℓ σ M : Type) where
  rely : σ → σ → Prop
  guar : ℓ → σ → M → σ → M → Prop
  refl : ∀ s, rely s s
  trans : ∀ {a b c}, rely a b → rely b c → rely a c

namespace Proc

variable {ℓ σ ε α β γ M : Type}

/-- The process keeps to a protocol.  It was last at state `s` owing `d`.  At
each of its statements the state may have moved along `rely`; the statement keeps
`rely`, it performs a step that `guar` allows, and the rest follows with the new
debt.  At the end `Q` holds. -/
def Follows (P : Protocol ℓ σ M) (Q : σ → M → Except ε α → Prop) :
    Proc ℓ σ ε α → σ → M → Prop
  | done r, s, d => Q s d r
  | stmt lab act k, s₀, d =>
    ∀ s, P.rely s₀ s → ∃ d', P.rely s (act s).2 ∧ P.guar lab s d (act s).2 d' ∧
      (k (act s).1).Follows P Q (act s).2 d'

namespace Follows

variable {P : Protocol ℓ σ M} {Q : σ → M → Except ε α → Prop} {s : σ} {d : M}

/-- Sequencing: the rest follows the protocol from wherever the first part may
leave it. -/
theorem bind {Q' : σ → M → Except ε β → Prop} {p : Proc ℓ σ ε β} {f : β → Proc ℓ σ ε α}
    (hp : p.Follows P Q' s d)
    (hok : ∀ s d b, Q' s d (.ok b) → (f b).Follows P Q s d)
    (herr : ∀ s d e, Q' s d (.error e) → Q s d (.error e)) :
    (p >>= f).Follows P Q s d := by
  induction p generalizing s d with
  | done r =>
    cases r with
    | ok b => exact hok s d b hp
    | error e => exact herr s d e hp
  | stmt lab act k ih =>
    intro s' hs'
    obtain ⟨d', hrely, hguar, hk⟩ := hp s' hs'
    exact ⟨d', hrely, hguar, ih _ hk⟩

/-- A process that follows a protocol to one end follows it to a weaker one. -/
theorem imp {Q' : σ → M → Except ε α → Prop} {p : Proc ℓ σ ε α}
    (hp : p.Follows P Q' s d) (h : ∀ s d r, Q' s d r → Q s d r) : p.Follows P Q s d := by
  induction p generalizing s d with
  | done r => exact h s d r hp
  | stmt lab act k ih =>
    intro s' hs'
    obtain ⟨d', hrely, hguar, hk⟩ := hp s' hs'
    exact ⟨d', hrely, hguar, ih _ hk⟩

/-- What others do along `rely` does not disturb a process. -/
theorem of_rely {Q : M → Except ε α → Prop} {p : Proc ℓ σ ε α} {s' : σ}
    (hp : p.Follows P (fun _ => Q) s d) (hs : P.rely s s') :
    p.Follows P (fun _ => Q) s' d := by
  cases p with
  | done r => exact hp
  | stmt lab act k => exact fun s'' hs'' => hp s'' (P.trans hs hs'')

/-- A process ends in a state that `rely` leads to. -/
theorem reaches {Q : M → Except ε α → Prop} {p : Proc ℓ σ ε α}
    (hp : p.Follows P (fun _ => Q) s d) :
    p.Follows P (fun s' d' r => P.rely s s' ∧ Q d' r) s d := by
  suffices h : ∀ t, P.rely s t → ∀ d, p.Follows P (fun _ => Q) t d →
      p.Follows P (fun s' d' r => P.rely s s' ∧ Q d' r) t d from h s (P.refl s) d hp
  clear hp
  induction p with
  | done r => exact fun t ht d hd => ⟨ht, hd⟩
  | stmt lab act k ih =>
    intro t ht d hd t' ht'
    obtain ⟨d', hrely, hguar, hk⟩ := hd t' ht'
    exact ⟨d', hrely, hguar, ih _ _ (P.trans (P.trans ht ht') hrely) d' hk⟩

/-- Statements that do what the protocol allows under their labels, without a change of
the debt. -/
theorem of_everyStep {D : ℓ → σ → σ → Prop}
    (hD : ∀ lab s s' d, D lab s s' → P.rely s s' ∧ P.guar lab s d s' d)
    {p : Proc ℓ σ ε α} (hp : p.EveryStep D) :
    p.Follows P (fun s' d' _ => P.rely s s' ∧ d' = d) s d := by
  suffices h : ∀ t, P.rely s t → p.Follows P (fun s' d' _ => P.rely s s' ∧ d' = d) t d from
    h s (P.refl s)
  induction p with
  | done r => exact fun t ht => ⟨ht, rfl⟩
  | stmt lab act k ih =>
    intro t ht t' ht'
    obtain ⟨hrely, hguar⟩ := hD lab t' (act t').2 d (hp.1 t')
    exact ⟨d, hrely, hguar, ih _ (hp.2 _) _ (P.trans (P.trans ht ht') hrely)⟩

/-- Statements that the protocol allows without a change of the debt. -/
theorem of_every {A : σ → σ → Prop}
    (hA : ∀ lab s s' d, A s s' → P.rely s s' ∧ P.guar lab s d s' d)
    {p : Proc ℓ σ ε α} (hp : p.Every A) :
    p.Follows P (fun s' d' _ => P.rely s s' ∧ d' = d) s d :=
  of_everyStep hA (EveryStep.of_every (fun _ _ _ h => h) hp)

/-- The same for a process that comes to no error. -/
theorem of_succeeds {A : σ → σ → Prop}
    (hA : ∀ lab s s' d, A s s' → P.rely s s' ∧ P.guar lab s d s' d)
    {p : Proc ℓ σ ε α} (hp : p.Every A) (hok : p.Succeeds) :
    p.Follows P (fun s' d' r => P.rely s s' ∧ d' = d ∧ ∃ a, r = .ok a) s d := by
  suffices h : ∀ t, P.rely s t →
      p.Follows P (fun s' d' r => P.rely s s' ∧ d' = d ∧ ∃ a, r = .ok a) t d from h s (P.refl s)
  induction p with
  | done r =>
    intro t ht
    cases r with
    | ok a => exact ⟨ht, rfl, a, rfl⟩
    | error e => exact hok.elim
  | stmt lab act k ih =>
    intro t ht t' ht'
    obtain ⟨hrely, hguar⟩ := hA lab t' (act t').2 d (hp.1 t')
    exact ⟨d, hrely, hguar, ih _ (hp.2 _) (hok _) _ (P.trans (P.trans ht ht') hrely)⟩

/-- A condition the code checks may be used in what follows. -/
theorem require {p : Prop} [Decidable p] {e : ε} {f : Unit → Proc ℓ σ ε α}
    (hok : p → (f ()).Follows P Q s d) (herr : ¬ p → Q s d (.error e)) :
    (Proc.require p e >>= f).Follows P Q s d := by
  by_cases h : p
  · rw [require_pos h]
    exact hok h
  · rw [require_neg h]
    exact herr h

/-- A value the code insists on may be used in what follows. -/
theorem orFail {o : Option β} {e : ε} {f : β → Proc ℓ σ ε α}
    (hok : ∀ b, o = some b → (f b).Follows P Q s d)
    (herr : o = none → Q s d (.error e)) :
    (Proc.orFail o e >>= f).Follows P Q s d := by
  cases o with
  | some b => exact hok b rfl
  | none => exact herr rfl

/-- A loop whose body starts and ends without debt, and leaves a condition along
which the loop can go on. -/
theorem forEach [Zero M] {J : σ → Prop} {xs : List γ} {body : γ → Proc ℓ σ ε Unit}
    (hbody : ∀ x ∈ xs, ∀ s, J s →
      (body x).Follows P (fun s' d r => d = 0 ∧ (r = .ok () → J s')) s 0) (hs : J s) :
    (Proc.forEach xs body).Follows P (fun s' d r => d = 0 ∧ (r = .ok () → J s')) s 0 := by
  induction xs generalizing s with
  | nil => exact ⟨rfl, fun _ => hs⟩
  | cons x xs ih =>
    refine (hbody x (List.mem_cons_self ..) s hs).bind ?_ fun _ _ _ h => ⟨h.1, nofun⟩
    intro s' d _ h
    obtain ⟨rfl, hJ⟩ := h
    exact ih (fun y hy => hbody y (List.mem_cons_of_mem x hy)) (hJ rfl)

/-- A loop that keeps a condition as long as no error ends it; an error may leave debts. -/
theorem forEach_ok [Zero M] {J : σ → Prop} {xs : List γ} {body : γ → Proc ℓ σ ε Unit}
    (hbody : ∀ x ∈ xs, ∀ s, J s →
      (body x).Follows P (fun s' d r => r = .ok () → d = 0 ∧ J s') s 0) (hs : J s) :
    (Proc.forEach xs body).Follows P (fun s' d r => r = .ok () → d = 0 ∧ J s') s 0 := by
  induction xs generalizing s with
  | nil => exact fun _ => ⟨rfl, hs⟩
  | cons x xs ih =>
    apply (hbody x (List.mem_cons_self ..) s hs).bind
    · intro s' d _ h
      obtain ⟨rfl, hJ⟩ := h rfl
      exact ih (fun y hy => hbody y (List.mem_cons_of_mem x hy)) hJ
    · exact fun _ _ _ _ => nofun

/-- What follows a process that is caught. -/
theorem outcome {Q' : σ → M → Except ε β → Prop} {p : Proc ℓ σ ε β}
    {f : Except ε β → Proc ℓ σ ε α} (hp : p.Follows P Q' s d)
    (hf : ∀ t d' r, Q' t d' r → (f r).Follows P Q t d') : (p.outcome >>= f).Follows P Q s d := by
  induction p generalizing s d with
  | done r => exact hf s d r hp
  | stmt lab act k ih =>
    intro s' hs'
    obtain ⟨d', hrely, hguar, hk⟩ := hp s' hs'
    exact ⟨d', hrely, hguar, ih _ hk⟩

/-- The same for a loop that collects results. -/
theorem mapEach [Zero M] {xs : List γ} {body : γ → Proc ℓ σ ε α}
    (hbody : ∀ x ∈ xs, ∀ s, (body x).Follows P (fun _ d _ => d = 0) s 0) :
    (Proc.mapEach xs body).Follows P (fun _ d _ => d = 0) s 0 := by
  induction xs generalizing s with
  | nil => exact rfl
  | cons x xs ih =>
    refine (hbody x (List.mem_cons_self ..) s).bind ?_ fun _ _ _ h => h
    intro s' d _ hd
    subst hd
    refine (ih fun y hy => hbody y (List.mem_cons_of_mem x hy)).bind ?_ fun _ _ _ h => h
    exact fun _ _ _ h => h

/-- A transaction is one statement.  What has to be shown of it is shown of the
execution of its body. -/
theorem transaction {lab : ℓ} {body : Proc ℓ σ ε β} {f : β → Proc ℓ σ ε α}
    (hok : ∀ t b t', P.rely s t → body.run t = (.ok b, t') →
      ∃ d', P.rely t t' ∧ P.guar lab t d t' d' ∧ (f b).Follows P Q t' d')
    (herr : ∀ t e, P.rely s t → P.guar lab t d t d ∧ Q t d (.error e)) :
    (Proc.transaction lab body >>= f).Follows P Q s d := by
  intro t ht
  cases h : body.run t with
  | mk r t' =>
    simp only [h]
    cases r with
    | ok b => exact hok t b t' ht h
    | error e => exact ⟨d, P.refl t, (herr t e ht).1, (herr t e ht).2⟩

/-- A process that follows a protocol and is executed alone. -/
theorem run [AddCommMonoid M] {A : ℓ → σ → Prop} {I : σ → M → Prop}
    (hI : ∀ lab s d s' d' o, A lab s → P.guar lab s d s' d' → P.rely s s' →
      I s (o + d) → I s' (o + d'))
    {p : Proc ℓ σ ε α} (hp : p.Follows P Q s d) {o : M} (hs : I s (o + d))
    (hA : p.Meets A s) :
    ∃ d', P.rely s (p.run s).2 ∧ Q (p.run s).2 d' (p.run s).1 ∧ I (p.run s).2 (o + d') := by
  induction p generalizing s d with
  | done r => exact ⟨d, P.refl s, hp, hs⟩
  | stmt lab act k ih =>
    obtain ⟨d', hrely, hguar, hk⟩ := hp s (P.refl s)
    obtain ⟨d'', hrely', hQ, hI'⟩ := ih _ hk (hI _ _ _ _ _ _ hA.1 hguar hrely hs) hA.2
    exact ⟨d'', P.trans hrely hrely', hQ, hI'⟩

end Follows

/-! ## Calls in a row -/

/-- Execute processes one after the other, each to its end. -/
def runAll : List (Proc ℓ σ ε α) → σ → σ
  | [], s => s
  | p :: ps, s => runAll ps (p.run s).2

/-- Every statement of a sequential execution satisfies `A`. -/
def MeetsAll (A : ℓ → σ → Prop) : List (Proc ℓ σ ε α) → σ → Prop
  | [], _ => True
  | p :: ps, s => p.Meets A s ∧ MeetsAll A ps (p.run s).2

instance decidableMeetsAll (A : ℓ → σ → Prop) [∀ lab s, Decidable (A lab s)] :
    (ps : List (Proc ℓ σ ε α)) → (s : σ) → Decidable (MeetsAll A ps s)
  | [], _ => isTrue trivial
  | p :: ps, s =>
    have := decidableMeetsAll A ps (p.run s).2
    inferInstanceAs (Decidable (p.Meets A s ∧ MeetsAll A ps (p.run s).2))

@[simp] theorem runAll_nil (s : σ) : runAll ([] : List (Proc ℓ σ ε α)) s = s := rfl

@[simp] theorem runAll_cons (p : Proc ℓ σ ε α) (ps : List (Proc ℓ σ ε α)) (s : σ) :
    runAll (p :: ps) s = runAll ps (p.run s).2 := rfl

/-- An invariant every call keeps holds after every sequence of calls. -/
theorem runAll_induction {A : ℓ → σ → Prop} {I : σ → Prop} {ps : List (Proc ℓ σ ε α)}
    (hI : ∀ p ∈ ps, ∀ s, I s → p.Meets A s → I (p.run s).2) {s : σ} (hs : I s)
    (hA : MeetsAll A ps s) : I (runAll ps s) := by
  induction ps generalizing s with
  | nil => exact hs
  | cons p ps ih =>
    exact ih (fun q hq => hI q (List.mem_cons_of_mem p hq))
      (hI p (List.mem_cons_self ..) s hs hA.1) hA.2

/-- Every call of a sequence satisfies `A` when its turn comes. -/
def AllAlong {γ : Type*} (handler : γ → Proc ℓ σ ε α) (A : γ → σ → Prop) : List γ → σ → Prop
  | [], _ => True
  | call :: calls, s => A call s ∧ AllAlong handler A calls ((handler call).run s).2

instance decidableAllAlong {γ : Type*} (handler : γ → Proc ℓ σ ε α) (A : γ → σ → Prop)
    [∀ call s, Decidable (A call s)] :
    (calls : List γ) → (s : σ) → Decidable (AllAlong handler A calls s)
  | [], _ => isTrue trivial
  | call :: calls, s =>
    have := decidableAllAlong handler A calls ((handler call).run s).2
    inferInstanceAs (Decidable (A call s ∧ AllAlong handler A calls ((handler call).run s).2))

/-- An invariant that every call keeps that satisfies `A`. -/
theorem AllAlong.runAll {γ : Type*} {handler : γ → Proc ℓ σ ε α} {A : γ → σ → Prop} {I : σ → Prop}
    (hI : ∀ call s, A call s → I s → I ((handler call).run s).2) {calls : List γ} {s : σ}
    (hA : AllAlong handler A calls s) (hs : I s) : I (Proc.runAll (calls.map handler) s) := by
  induction calls generalizing s with
  | nil => exact hs
  | cons call calls ih => exact ih hA.2 (hI call s hA.1 hs)

theorem meets_true (p : Proc ℓ σ ε α) (s : σ) : p.Meets (fun _ _ => True) s := by
  induction p generalizing s with
  | done r => trivial
  | stmt lab act k ih => exact ⟨trivial, ih _ _⟩

theorem meetsAll_true (ps : List (Proc ℓ σ ε α)) (s : σ) : MeetsAll (fun _ _ => True) ps s := by
  induction ps generalizing s with
  | nil => trivial
  | cons p ps ih => exact ⟨meets_true p s, ih _⟩

end Proc

/-- Processes that share a state. -/
structure Pool (ι ℓ σ ε α : Type) where
  threads : ι → Proc ℓ σ ε α
  state : σ

namespace Pool

variable {ι ℓ σ ε α M : Type} [DecidableEq ι]

/-- Let process `i` execute its next statement. -/
def step (c : Pool ι ℓ σ ε α) (i : ι) : Pool ι ℓ σ ε α :=
  match c.threads i with
  | .done _ => c
  | .stmt _ act k => ⟨Function.update c.threads i (k (act c.state).1), (act c.state).2⟩

/-- Follow a schedule. -/
def run (c : Pool ι ℓ σ ε α) (sched : List ι) : Pool ι ℓ σ ε α := sched.foldl step c

/-- The next statement of process `i` satisfies `A` in the present state. -/
def Meets (A : ℓ → σ → Prop) (c : Pool ι ℓ σ ε α) (i : ι) : Prop :=
  match c.threads i with
  | .done _ => True
  | .stmt lab _ _ => A lab c.state

/-- Process `i` has a next statement, and it satisfies `A` in the present state. -/
def NextIs (A : ℓ → σ → Prop) (c : Pool ι ℓ σ ε α) (i : ι) : Prop :=
  match c.threads i with
  | .done _ => False
  | .stmt lab _ _ => A lab c.state

/-- Every statement of a schedule satisfies `A` when it is executed. -/
def Allowed (A : ℓ → σ → Prop) : Pool ι ℓ σ ε α → List ι → Prop
  | _, [] => True
  | c, i :: is => c.Meets A i ∧ Allowed A (c.step i) is

instance (A : ℓ → σ → Prop) [∀ lab s, Decidable (A lab s)] (c : Pool ι ℓ σ ε α) (i : ι) :
    Decidable (c.Meets A i) :=
  match h : c.threads i with
  | .done _ => isTrue (by rw [Meets, h]; trivial)
  | .stmt lab _ _ => decidable_of_iff (A lab c.state) (by rw [Meets, h])

instance (A : ℓ → σ → Prop) [∀ lab s, Decidable (A lab s)] (c : Pool ι ℓ σ ε α) (i : ι) :
    Decidable (c.NextIs A i) :=
  match h : c.threads i with
  | .done _ => isFalse (by rw [NextIs, h]; exact id)
  | .stmt lab _ _ => decidable_of_iff (A lab c.state) (by rw [NextIs, h])

instance decidableAllowed (A : ℓ → σ → Prop) [∀ lab s, Decidable (A lab s)] :
    (c : Pool ι ℓ σ ε α) → (sched : List ι) → Decidable (c.Allowed A sched)
  | _, [] => isTrue trivial
  | c, i :: is =>
    have := decidableAllowed A (c.step i) is
    inferInstanceAs (Decidable (c.Meets A i ∧ Allowed A (c.step i) is))

/-- Every process has come to its end. -/
def Finished (c : Pool ι ℓ σ ε α) : Prop := ∀ i, ∃ r, c.threads i = .done r

@[simp] theorem run_nil (c : Pool ι ℓ σ ε α) : c.run [] = c := rfl

@[simp] theorem run_cons (c : Pool ι ℓ σ ε α) (i : ι) (is : List ι) :
    c.run (i :: is) = (c.step i).run is := rfl

theorem run_append (c : Pool ι ℓ σ ε α) (is js : List ι) :
    c.run (is ++ js) = (c.run is).run js := List.foldl_append

theorem step_done {c : Pool ι ℓ σ ε α} {i : ι} {r : Except ε α} (h : c.threads i = .done r) :
    c.step i = c := by
  unfold step
  rw [h]

theorem step_stmt {c : Pool ι ℓ σ ε α} {i : ι} {β : Type} {lab : ℓ} {act : σ → β × σ}
    {k : β → Proc ℓ σ ε α} (h : c.threads i = .stmt lab act k) :
    c.step i = ⟨Function.update c.threads i (k (act c.state).1), (act c.state).2⟩ := by
  unfold step
  rw [h]

theorem step_eq_next (c : Pool ι ℓ σ ε α) (i : ι) :
    c.step i = ⟨Function.update c.threads i ((c.threads i).next c.state).1,
      ((c.threads i).next c.state).2⟩ := by
  cases h : c.threads i with
  | done r =>
    rw [step_done h]
    show c = ⟨Function.update c.threads i (.done r), c.state⟩
    rw [← h, Function.update_eq_self]
  | stmt lab act k => exact step_stmt h

omit [DecidableEq ι] in
theorem NextIs.meets {A : ℓ → σ → Prop} {c : Pool ι ℓ σ ε α} {i : ι} (h : c.NextIs A i) :
    c.Meets A i := by
  cases hth : c.threads i with
  | done r =>
    rw [NextIs, hth] at h
    exact h.elim
  | stmt lab act k =>
    rw [NextIs, hth] at h
    rwa [Meets, hth]

/-- A property of pools that every step keeps holds after every schedule. -/
theorem run_induction {A : ℓ → σ → Prop} {P : Pool ι ℓ σ ε α → Prop}
    (hP : ∀ c i, P c → c.Meets A i → P (c.step i)) {c : Pool ι ℓ σ ε α} (hc : P c)
    {sched : List ι} (hA : c.Allowed A sched) : P (c.run sched) := by
  induction sched generalizing c with
  | nil => exact hc
  | cons i is ih => exact ih (hP c i hc hA.1) hA.2

theorem allowed_append {A : ℓ → σ → Prop} {c : Pool ι ℓ σ ε α} {is js : List ι} :
    c.Allowed A (is ++ js) ↔ c.Allowed A is ∧ (c.run is).Allowed A js := by
  induction is generalizing c with
  | nil => exact ⟨fun h => ⟨trivial, h⟩, fun h => h.2⟩
  | cons i is ih =>
    constructor
    · intro h
      exact ⟨⟨h.1, (ih.mp h.2).1⟩, (ih.mp h.2).2⟩
    · intro h
      exact ⟨h.1.1, ih.mpr ⟨h.1.2, h.2⟩⟩

theorem allowed_true (c : Pool ι ℓ σ ε α) (sched : List ι) :
    c.Allowed (fun _ _ => True) sched := by
  induction sched generalizing c with
  | nil => trivial
  | cons i is ih =>
    refine ⟨?_, ih _⟩
    unfold Meets
    split <;> trivial

/-! ## Steps that are alike for every process -/

/-- What every statement of the processes does, a step of the pool does. -/
theorem step_every {A : σ → σ → Prop} {c : Pool ι ℓ σ ε α} (hc : ∀ i, (c.threads i).Every A)
    (i : ι) : ((c.step i).state = c.state ∨ A c.state (c.step i).state) ∧
      ∀ j, ((c.step i).threads j).Every A := by
  cases hth : c.threads i with
  | done r =>
    rw [step_done hth]
    exact ⟨.inl rfl, hc⟩
  | stmt lab act k =>
    have hi := hc i
    rw [hth] at hi
    rw [step_stmt hth]
    refine ⟨.inr (hi.1 _), fun j => ?_⟩
    by_cases hj : j = i
    · subst hj
      simpa using hi.2 _
    · simpa [hj] using hc j

theorem run_every {A : σ → σ → Prop} {c : Pool ι ℓ σ ε α} (hc : ∀ i, (c.threads i).Every A)
    (sched : List ι) : ∀ i, ((c.run sched).threads i).Every A := by
  induction sched generalizing c with
  | nil => exact hc
  | cons i is ih => exact ih (step_every hc i).2

/-- The last step of a schedule. -/
theorem last_step_every {A : σ → σ → Prop} {c : Pool ι ℓ σ ε α}
    (hc : ∀ i, (c.threads i).Every A) (sched : List ι) (i : ι) :
    (c.run (sched ++ [i])).state = (c.run sched).state ∨
      A (c.run sched).state (c.run (sched ++ [i])).state := by
  rw [run_append]
  exact (step_every (run_every hc sched) i).1

/-- A step of a pool does what a statement of its process does under its label. -/
theorem step_everyStep {D : ℓ → σ → σ → Prop} {c : Pool ι ℓ σ ε α}
    (hc : ∀ i, (c.threads i).EveryStep D) (i : ι) :
    (c.step i = c ∨ ∃ lab, (∀ A : ℓ → σ → Prop, c.Meets A i → A lab c.state) ∧
      D lab c.state (c.step i).state) ∧ ∀ j, ((c.step i).threads j).EveryStep D := by
  cases hth : c.threads i with
  | done r =>
    rw [step_done hth]
    exact ⟨.inl rfl, hc⟩
  | stmt lab act k =>
    have hi := hc i
    rw [hth] at hi
    constructor
    · right
      refine ⟨lab, ?_, ?_⟩
      · intro A hA
        unfold Meets at hA
        rwa [hth] at hA
      · rw [step_stmt hth]
        exact hi.1 _
    · intro j
      rw [step_stmt hth]
      by_cases hj : j = i
      · subst hj
        simpa using hi.2 _
      · simpa [hj] using hc j

/-- The same where the next statement is known to satisfy a condition. -/
theorem step_everyStep_of_nextIs {D : ℓ → σ → σ → Prop} {A : ℓ → σ → Prop} {c : Pool ι ℓ σ ε α}
    {i : ι} (hc : (c.threads i).EveryStep D) (h : c.NextIs A i) :
    ∃ lab, A lab c.state ∧ D lab c.state (c.step i).state := by
  cases hth : c.threads i with
  | done r =>
    rw [NextIs, hth] at h
    exact h.elim
  | stmt lab act k =>
    rw [NextIs, hth] at h
    rw [hth] at hc
    refine ⟨lab, h, ?_⟩
    rw [step_stmt hth]
    exact hc.1 _

theorem run_everyStep {D : ℓ → σ → σ → Prop} {c : Pool ι ℓ σ ε α}
    (hc : ∀ i, (c.threads i).EveryStep D) (sched : List ι) :
    ∀ i, ((c.run sched).threads i).EveryStep D := by
  induction sched generalizing c with
  | nil => exact hc
  | cons i is ih => exact ih (step_everyStep hc i).2

/-- The last step of a schedule whose statements all satisfy a condition. -/
theorem last_step_everyStep {D : ℓ → σ → σ → Prop} {A : ℓ → σ → Prop} {c : Pool ι ℓ σ ε α}
    (hc : ∀ i, (c.threads i).EveryStep D) {sched : List ι} {i : ι}
    (hA : c.Allowed A (sched ++ [i])) :
    (c.run (sched ++ [i])).state = (c.run sched).state ∨
      ∃ lab, A lab (c.run sched).state ∧
        D lab (c.run sched).state (c.run (sched ++ [i])).state := by
  have hmeets := (allowed_append.mp hA).2.1
  rw [run_append]
  rcases (step_everyStep (run_everyStep hc sched) i).1 with hsame | ⟨lab, hlab, hD⟩
  · exact .inl (congrArg state hsame)
  · exact .inr ⟨lab, hlab A hmeets, hD⟩

/-- What statements that satisfy a condition do, a run of such statements does. -/
theorem run_rel {D : ℓ → σ → σ → Prop} {A : ℓ → σ → Prop} {R : σ → σ → Prop}
    (hrefl : ∀ s, R s s) (htrans : ∀ {a b c}, R a b → R b c → R a c)
    (hR : ∀ lab s s', D lab s s' → A lab s → R s s') {c : Pool ι ℓ σ ε α}
    (hc : ∀ i, (c.threads i).EveryStep D) {sched : List ι} (hA : c.Allowed A sched) :
    R c.state (c.run sched).state := by
  induction sched generalizing c with
  | nil => exact hrefl _
  | cons i is ih =>
    obtain ⟨hstep, hnext⟩ := step_everyStep hc i
    have hrest := ih hnext hA.2
    rcases hstep with hsame | ⟨lab, hlab, hD⟩
    · rw [hsame] at hrest
      rwa [run_cons, hsame]
    · exact htrans (hR lab _ _ hD (hlab A hA.1)) hrest

/-- An invariant that every statement keeps. -/
theorem run_invariant {A : σ → σ → Prop} {J : σ → Prop} (hJ : ∀ s s', A s s' → J s → J s')
    {c : Pool ι ℓ σ ε α} (hc : ∀ i, (c.threads i).Every A) (h0 : J c.state) (sched : List ι) :
    J (c.run sched).state := by
  induction sched generalizing c with
  | nil => exact h0
  | cons i is ih =>
    obtain ⟨hstate, hnext⟩ := step_every hc i
    refine ih hnext ?_
    rcases hstate with hsame | hstep
    · rwa [hsame]
    · exact hJ _ _ hstep h0

section Protocol

variable {P : Protocol ℓ σ M} {Q : M → Except ε α → Prop}

/-- Every process of the pool follows the protocol, process `i` owing `d i`. -/
def Follows (P : Protocol ℓ σ M) (Q : M → Except ε α → Prop) (c : Pool ι ℓ σ ε α)
    (d : ι → M) : Prop :=
  ∀ i, (c.threads i).Follows P (fun _ => Q) c.state (d i)

/-- What a step of a pool does: nothing, or a step the protocol allows to the
process that takes it. -/
theorem Follows.step_cases {c : Pool ι ℓ σ ε α} {d : ι → M} (hc : c.Follows P Q d) (i : ι) :
    c.step i = c ∨ ∃ lab d', (∀ A : ℓ → σ → Prop, c.Meets A i → A lab c.state) ∧
      P.guar lab c.state (d i) (c.step i).state d' ∧
      P.rely c.state (c.step i).state ∧
      (c.step i).Follows P Q (Function.update d i d') := by
  cases hth : c.threads i with
  | done r => exact .inl (step_done hth)
  | stmt lab act k =>
    have hi := hc i
    rw [hth] at hi
    obtain ⟨d', hrely, hguar, hk⟩ := hi c.state (P.refl _)
    refine .inr ⟨lab, d', fun A hA => ?_, ?_, ?_, fun j => ?_⟩
    · unfold Meets at hA
      rwa [hth] at hA
    · rwa [step_stmt hth]
    · rwa [step_stmt hth]
    · rw [step_stmt hth]
      by_cases hj : j = i
      · subst hj
        simpa using hk
      · simpa [hj] using (hc j).of_rely hrely

/-- The processes of a pool go on following the protocol. -/
theorem Follows.run {c : Pool ι ℓ σ ε α} {d : ι → M} (hc : c.Follows P Q d) (sched : List ι) :
    ∃ d', (c.run sched).Follows P Q d' := by
  induction sched generalizing c d with
  | nil => exact ⟨d, hc⟩
  | cons i is ih =>
    rcases hc.step_cases i with hsame | ⟨_, d', -, -, -, hnext⟩
    · rw [run_cons, hsame]
      exact ih hc
    · exact ih hnext

/-- A schedule moves the state along `rely`. -/
theorem Follows.run_rely {c : Pool ι ℓ σ ε α} {d : ι → M} (hc : c.Follows P Q d)
    (sched : List ι) : P.rely c.state (c.run sched).state := by
  induction sched generalizing c d with
  | nil => exact P.refl _
  | cons i is ih =>
    rcases hc.step_cases i with hsame | ⟨_, d', -, -, hrely, hnext⟩
    · rw [run_cons, hsame]
      exact ih hc
    · exact P.trans hrely (ih hnext)

/-- An invariant that the protocol keeps under a condition on its statements. -/
theorem Follows.run_invariant {A : ℓ → σ → Prop} {I : σ → Prop}
    (hI : ∀ lab s d s' d', A lab s → P.guar lab s d s' d' → P.rely s s' → I s → I s')
    {c : Pool ι ℓ σ ε α} {d : ι → M} (hc : c.Follows P Q d) (h0 : I c.state) {sched : List ι}
    (hA : c.Allowed A sched) : I (c.run sched).state := by
  induction sched generalizing c d with
  | nil => exact h0
  | cons i is ih =>
    rcases hc.step_cases i with hsame | ⟨lab, d', hlab, hguar, hrely, hnext⟩
    · have hrest := hA.2
      rw [hsame] at hrest
      rw [run_cons, hsame]
      exact ih hc h0 hrest
    · exact ih hnext (hI _ _ _ _ _ (hlab A hA.1) hguar hrely h0) hA.2

/-- A step of a schedule whose statements satisfy `A` does nothing, or what the protocol
allows to a statement that satisfies `A`. -/
theorem Follows.last_step {A : ℓ → σ → Prop} {c : Pool ι ℓ σ ε α} {d : ι → M}
    (hc : c.Follows P Q d) {sched : List ι} {i : ι} (hA : c.Allowed A (sched ++ [i])) :
    (c.run (sched ++ [i])).state = (c.run sched).state ∨
      ∃ lab d d', A lab (c.run sched).state ∧
        P.guar lab (c.run sched).state d (c.run (sched ++ [i])).state d' ∧
        P.rely (c.run sched).state (c.run (sched ++ [i])).state := by
  obtain ⟨d', hrun⟩ := hc.run sched
  have hmeets := (allowed_append.mp hA).2.1
  rw [run_append]
  rcases hrun.step_cases i with hsame | ⟨lab, d'', hlab, hguar, hrely, -⟩
  · exact .inl (congrArg state hsame)
  · exact .inr ⟨lab, d' i, d'', hlab A hmeets, hguar, hrely⟩

/-- A condition that may fail only while some process owes.  `R` is how a debt may change, and a
process that is not scheduled keeps its own. -/
theorem Follows.run_owing {A : ℓ → σ → Prop} (I : σ → Prop) (owes : M → Prop) (R : M → M → Prop)
    (hrefl : ∀ d, R d d) (htrans : ∀ {a b c}, R a b → R b c → R a c)
    (hI : ∀ lab s d s' d', A lab s → P.guar lab s d s' d' → P.rely s s' →
      R d d' ∧ (I s ∨ owes d → I s' ∨ owes d'))
    {c : Pool ι ℓ σ ε α} {d : ι → M} (hc : c.Follows P Q d)
    (h0 : I c.state ∨ ∃ i, owes (d i)) {sched : List ι} (hA : c.Allowed A sched) :
    ∃ d', (c.run sched).Follows P Q d' ∧ (∀ i, R (d i) (d' i)) ∧
      (∀ i, i ∉ sched → d' i = d i) ∧ (I (c.run sched).state ∨ ∃ i, owes (d' i)) := by
  induction sched generalizing c d with
  | nil => exact ⟨d, hc, fun i => hrefl (d i), fun _ _ => rfl, h0⟩
  | cons i is ih =>
    rcases hc.step_cases i with hsame | ⟨lab, d', hlab, hguar, hrely, hnext⟩
    · have hrest := hA.2
      rw [hsame] at hrest
      obtain ⟨d', hrun, hR, hkept, hend⟩ := ih hc h0 hrest
      rw [run_cons, hsame]
      exact ⟨d', hrun, hR, fun j hj => hkept j (fun hmem => hj (List.mem_cons_of_mem i hmem)), hend⟩
    · obtain ⟨hdebt, howing⟩ := hI _ _ _ _ _ (hlab A hA.1) hguar hrely
      have hnow : I (c.step i).state ∨ ∃ j, owes (Function.update d i d' j) := by
        have hi : I (c.step i).state ∨ owes d' → I (c.step i).state ∨
            ∃ j, owes (Function.update d i d' j) := by
          rintro (hstate | howes)
          · exact .inl hstate
          · exact .inr ⟨i, by rwa [Function.update_self]⟩
        rcases h0 with hstate | ⟨j, hj⟩
        · exact hi (howing (.inl hstate))
        · by_cases heq : j = i
          · exact hi (howing (.inr (heq ▸ hj)))
          · exact .inr ⟨j, by rwa [Function.update_of_ne heq]⟩
      obtain ⟨d'', hrun, hR, hkept, hend⟩ := ih hnext hnow hA.2
      refine ⟨d'', hrun, ?_, ?_, hend⟩
      · intro j
        have hj := hR j
        by_cases heq : j = i
        · subst heq
          rw [Function.update_self] at hj
          exact htrans hdebt hj
        · rwa [Function.update_of_ne heq] at hj
      · intro j hj
        rw [List.mem_cons, not_or] at hj
        rw [hkept j hj.2, Function.update_of_ne hj.1]

variable [Fintype ι] [AddCommMonoid M]

/-- The debts after one process has changed its own. -/
theorem exists_sum_update (d : ι → M) (i : ι) :
    ∃ o, ∑ j, d j = o + d i ∧ ∀ x, ∑ j, Function.update d i x j = o + x := by
  refine ⟨∑ j ∈ univ.erase i, d j, (sum_erase_add univ d (mem_univ i)).symm, fun x => ?_⟩
  rw [sum_update_of_mem (mem_univ i), add_comm, sdiff_singleton_eq_erase]

/-- An invariant of the state and the total debt that every allowed step keeps
holds after every schedule. -/
theorem run_follows {A : ℓ → σ → Prop} {I : σ → M → Prop}
    (hI : ∀ lab s d s' d' o, A lab s → P.guar lab s d s' d' → P.rely s s' →
      I s (o + d) → I s' (o + d'))
    {c : Pool ι ℓ σ ε α} {d : ι → M} (hc : c.Follows P Q d)
    (h0 : I c.state (∑ i, d i)) {sched : List ι} (hA : c.Allowed A sched) :
    ∃ d', (c.run sched).Follows P Q d' ∧ I (c.run sched).state (∑ i, d' i) := by
  refine run_induction (A := A)
    (P := fun c => ∃ d, c.Follows P Q d ∧ I c.state (∑ i, d i)) ?_ ⟨d, hc, h0⟩ hA
  intro c i hinv hmeets
  obtain ⟨d, hc, hinv⟩ := hinv
  rcases hc.step_cases i with hsame | ⟨lab, d', hlab, hguar, hrely, hnext⟩
  · exact ⟨d, by rwa [hsame], by rwa [hsame]⟩
  · refine ⟨Function.update d i d', hnext, ?_⟩
    obtain ⟨o, hsum, hsum'⟩ := exists_sum_update d i
    rw [hsum] at hinv
    rw [hsum']
    exact hI _ _ _ _ _ _ (hlab A hmeets) hguar hrely hinv

omit [DecidableEq ι] in
/-- When every process has ended without debt, there is no debt. -/
theorem Follows.sum_eq_zero {c : Pool ι ℓ σ ε α} {d : ι → M}
    (hc : c.Follows P (fun d _ => d = 0) d) (hfin : c.Finished) : ∑ i, d i = 0 := by
  refine Finset.sum_eq_zero fun i _ => ?_
  obtain ⟨r, hr⟩ := hfin i
  have hi := hc i
  rw [hr] at hi
  exact hi

end Protocol

/-! ## Processes that commit at most once

The debt of such a process is what it has committed, and the log lists the commits in
their order. -/

section Log

variable {κ : Type} {P : Protocol ℓ σ (Option κ)} {Q : Option κ → Except ε α → Prop}

/-- A log of commits, at most one of each process. -/
structure IsLog (d : ι → Option κ) (log : List (ι × κ)) : Prop where
  nodup : (log.map Prod.fst).Nodup
  mem_iff : ∀ i k, d i = some k ↔ (i, k) ∈ log

omit [DecidableEq ι] in
theorem IsLog.nil : IsLog (fun _ : ι => (none : Option κ)) [] :=
  ⟨List.nodup_nil, fun _ _ => ⟨nofun, nofun⟩⟩

omit [DecidableEq ι] in
theorem IsLog.eq_none_iff {d : ι → Option κ} {log : List (ι × κ)} (h : IsLog d log) {i : ι} :
    d i = none ↔ i ∉ log.map Prod.fst := by
  constructor
  · intro hnone hi
    obtain ⟨e, he, rfl⟩ := List.mem_map.mp hi
    rw [(h.mem_iff e.1 e.2).mpr he] at hnone
    exact absurd hnone nofun
  · intro hi
    cases hd : d i with
    | none => rfl
    | some k => exact absurd (List.mem_map_of_mem ((h.mem_iff i k).mp hd)) hi

theorem IsLog.commit {d : ι → Option κ} {log : List (ι × κ)} (h : IsLog d log) {i : ι}
    (hi : d i = none) (k : κ) : IsLog (Function.update d i (some k)) (log ++ [(i, k)]) := by
  constructor
  · rw [List.map_append, List.nodup_append]
    refine ⟨h.nodup, List.nodup_singleton _, ?_⟩
    intro a ha b hb heq
    rw [List.map_singleton, List.mem_singleton] at hb
    rw [heq, hb] at ha
    exact h.eq_none_iff.mp hi ha
  · intro j k'
    rw [List.mem_append, List.mem_singleton, Prod.mk.injEq]
    by_cases hj : j = i
    · subst hj
      have hnot : (j, k') ∉ log := by
        intro hmem
        rw [(h.mem_iff j k').mpr hmem] at hi
        exact absurd hi nofun
      rw [Function.update_self, Option.some.injEq]
      simp [hnot, eq_comm]
    · rw [Function.update_of_ne hj, h.mem_iff]
      simp [hj]

/-- Every process keeps what it has committed, or commits for the first time, and the
invariant holds of the state and the log. -/
theorem run_log {A : ℓ → σ → Prop} {J : σ → List (ι × κ) → Prop}
    (hJ : ∀ lab s d s' d', A lab s → P.guar lab s d s' d' → P.rely s s' →
      d' = d ∧ (∀ log, J s log → J s' log) ∨
        d = none ∧ ∃ k, d' = some k ∧ ∀ i log, J s log → J s' (log ++ [(i, k)]))
    {c : Pool ι ℓ σ ε α} (hc : c.Follows P Q fun _ => none) (h0 : J c.state [])
    {sched : List ι} (hA : c.Allowed A sched) :
    ∃ d log, (c.run sched).Follows P Q d ∧ IsLog d log ∧ J (c.run sched).state log := by
  refine run_induction (A := A)
    (P := fun c => ∃ d log, c.Follows P Q d ∧ IsLog d log ∧ J c.state log) ?_
    ⟨_, _, hc, .nil, h0⟩ hA
  intro c i hinv hmeets
  obtain ⟨d, log, hc, hlog, hstate⟩ := hinv
  rcases hc.step_cases i with hsame | ⟨lab, d', hlab, hguar, hrely, hnext⟩
  · rw [hsame]
    exact ⟨d, log, hc, hlog, hstate⟩
  rcases hJ _ _ _ _ _ (hlab A hmeets) hguar hrely with ⟨rfl, hkeep⟩ | ⟨hnone, k, rfl, hcommit⟩
  · rw [Function.update_eq_self] at hnext
    exact ⟨d, log, hnext, hlog, hkeep log hstate⟩
  · exact ⟨_, _, hnext, hlog.commit hnone k, hcommit i log hstate⟩

end Log

end Pool
end NexusEfos
