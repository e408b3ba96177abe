/-
Processes that work on shared state one statement at a time.

A `Proc ℓ σ ε α` is what is left of a piece of code to do: it has stopped, with a
value or an error, or it has a statement to execute and continues with what the
statement answered.  A statement is atomic.  Between two statements of one
process other processes may run, so a value a process has read may be out of date
when it is used.  Each statement carries a label, on which a condition about a
run can be stated; the label has no effect on what the statement does.

`run` executes a process from start to end with nothing in between.
`transaction` packs a whole process into one statement that takes effect only if
the process succeeds, and `failAt` cuts a process short with an error, which is
how a fault in the middle of a transaction is expressed.
-/
import Mathlib.Data.Nat.Notation

namespace NexusEfos

/-- A process over states `σ`, with statements labelled by `ℓ`, errors in `ε` and
results in `α`. -/
inductive Proc (ℓ σ ε : Type) (α : Type) : Type 1
  | done (r : Except ε α)
  | stmt {β : Type} (lab : ℓ) (act : σ → β × σ) (k : β → Proc ℓ σ ε α)

namespace Proc

variable {ℓ σ ε α β γ : Type}

/-- Continue a process with another one.  An error ends both. -/
def bind : Proc ℓ σ ε α → (α → Proc ℓ σ ε β) → Proc ℓ σ ε β
  | done (.ok a), f => f a
  | done (.error e), _ => done (.error e)
  | stmt lab act k, f => stmt lab act fun b => (k b).bind f

instance : Monad (Proc ℓ σ ε) where
  pure a := done (.ok a)
  bind := bind

/-- Stop with an error. -/
def fail (e : ε) : Proc ℓ σ ε α := done (.error e)

/-- One statement. -/
def exec (lab : ℓ) (act : σ → α × σ) : Proc ℓ σ ε α := stmt lab act fun a => done (.ok a)

/-- One statement that may answer with an error. -/
def attempt (lab : ℓ) (act : σ → Except ε α × σ) : Proc ℓ σ ε α := stmt lab act done

/-- The value of an option, or an error. -/
def orFail (o : Option α) (e : ε) : Proc ℓ σ ε α :=
  match o with
  | some a => pure a
  | none => fail e

/-- Go on only if a condition holds. -/
def require (p : Prop) [Decidable p] (e : ε) : Proc ℓ σ ε Unit :=
  if p then pure () else fail e

/-- Do the same for every element of a list, in order. -/
def forEach : List γ → (γ → Proc ℓ σ ε Unit) → Proc ℓ σ ε Unit
  | [], _ => pure ()
  | x :: xs, body => body x >>= fun _ => forEach xs body

/-- Collect the results of doing the same for every element of a list. -/
def mapEach : List γ → (γ → Proc ℓ σ ε α) → Proc ℓ σ ε (List α)
  | [], _ => pure []
  | x :: xs, body => body x >>= fun a => mapEach xs body >>= fun as => pure (a :: as)

/-! ## Execution from start to end -/

/-- Execute a process with nothing else in between. -/
def run : Proc ℓ σ ε α → σ → Except ε α × σ
  | done r, s => (r, s)
  | stmt _ act k, s => (k (act s).1).run (act s).2

/-- Pack a process into one statement.  An error undoes what it did. -/
def transaction (lab : ℓ) (body : Proc ℓ σ ε α) : Proc ℓ σ ε α :=
  attempt lab fun s =>
    match body.run s with
    | (.ok a, s') => (.ok a, s')
    | (.error e, _) => (.error e, s)

/-- Let a process execute `n` statements and then stop with an error. -/
def failAt (e : ε) : ℕ → Proc ℓ σ ε α → Proc ℓ σ ε α
  | 0, _ => fail e
  | _ + 1, done r => done r
  | n + 1, stmt lab act k => stmt lab act fun b => (k b).failAt e n

/-- Cut a process short, or leave it as it is. -/
def interrupted : Option (ℕ × ε) → Proc ℓ σ ε α → Proc ℓ σ ε α
  | none, p => p
  | some (n, e), p => p.failAt e n

/-- A process that works on a part of the state.  What it ends with, an error as much as a
value, is the answer. -/
def within {τ ε' : Type} (get : τ → σ) (set : σ → τ → τ) :
    Proc ℓ σ ε α → Proc ℓ τ ε' (Except ε α)
  | done r => done (.ok r)
  | stmt lab act k =>
    stmt lab (fun t => ((act (get t)).1, set (act (get t)).2 t)) fun b => (k b).within get set

/-- The same where an error of the process is an error of the whole. -/
def onPart {τ : Type} (get : τ → σ) (set : σ → τ → τ) (p : Proc ℓ σ ε α) : Proc ℓ τ ε α :=
  p.within get set >>= done

/-- Go on with what a process ends with, be it a value or an error. -/
def outcome : Proc ℓ σ ε α → Proc ℓ σ ε (Except ε α)
  | done r => done (.ok r)
  | stmt lab act k => stmt lab act fun b => (k b).outcome

/-- Every statement an execution performs satisfies `A` in the state it meets. -/
def Meets (A : ℓ → σ → Prop) : Proc ℓ σ ε α → σ → Prop
  | done _, _ => True
  | stmt lab act k, s => A lab s ∧ (k (act s).1).Meets A (act s).2

instance decidableMeets (A : ℓ → σ → Prop) [∀ lab s, Decidable (A lab s)] :
    (p : Proc ℓ σ ε α) → (s : σ) → Decidable (p.Meets A s)
  | done _, _ => isTrue trivial
  | stmt lab act k, s =>
    have := decidableMeets A (k (act s).1) (act s).2
    inferInstanceAs (Decidable (A lab s ∧ (k (act s).1).Meets A (act s).2))

/-- Execute one statement: what is left to do, and the state. -/
def next : Proc ℓ σ ε α → σ → Proc ℓ σ ε α × σ
  | done r, s => (done r, s)
  | stmt _ act k, s => (k (act s).1, (act s).2)

/-- Every statement a process can come to changes the state only along `A`. -/
def Every (A : σ → σ → Prop) : Proc ℓ σ ε α → Prop
  | done _ => True
  | stmt _ act k => (∀ s, A s (act s).2) ∧ ∀ b, (k b).Every A

/-- A process that comes to no error. -/
def Succeeds : Proc ℓ σ ε α → Prop
  | done (.ok _) => True
  | done (.error _) => False
  | stmt _ _ k => ∀ b, (k b).Succeeds

/-! ## Equations -/

@[simp] theorem pure_def (a : α) : (pure a : Proc ℓ σ ε α) = done (.ok a) := rfl

@[simp] theorem done_ok_bind (a : α) (f : α → Proc ℓ σ ε β) :
    (done (.ok a) >>= f : Proc ℓ σ ε β) = f a := rfl

@[simp] theorem done_error_bind (e : ε) (f : α → Proc ℓ σ ε β) :
    (done (.error e) >>= f : Proc ℓ σ ε β) = done (.error e) := rfl

@[simp] theorem stmt_bind (lab : ℓ) (act : σ → γ × σ) (k : γ → Proc ℓ σ ε α)
    (f : α → Proc ℓ σ ε β) :
    (stmt lab act k >>= f : Proc ℓ σ ε β) = stmt lab act fun b => k b >>= f := rfl

@[simp] theorem exec_bind (lab : ℓ) (act : σ → α × σ) (f : α → Proc ℓ σ ε β) :
    (exec lab act >>= f : Proc ℓ σ ε β) = stmt lab act f := rfl

theorem bind_assoc (p : Proc ℓ σ ε α) (f : α → Proc ℓ σ ε β) (g : β → Proc ℓ σ ε γ) :
    (p >>= f) >>= g = p >>= fun a => f a >>= g := by
  induction p with
  | done r =>
    cases r with
    | ok a => rfl
    | error e => rfl
  | stmt lab act k ih => exact congrArg (stmt lab act) (funext ih)

theorem bind_pure (p : Proc ℓ σ ε α) : (p >>= fun a => pure a) = p := by
  induction p with
  | done r =>
    cases r with
    | ok a => rfl
    | error e => rfl
  | stmt lab act k ih => exact congrArg (stmt lab act) (funext ih)

@[simp] theorem run_done (r : Except ε α) (s : σ) : (done r : Proc ℓ σ ε α).run s = (r, s) := rfl

@[simp] theorem run_fail (e : ε) (s : σ) : (fail e : Proc ℓ σ ε α).run s = (.error e, s) := rfl

@[simp] theorem run_stmt (lab : ℓ) (act : σ → β × σ) (k : β → Proc ℓ σ ε α) (s : σ) :
    (stmt lab act k).run s = (k (act s).1).run (act s).2 := rfl

@[simp] theorem run_exec (lab : ℓ) (act : σ → α × σ) (s : σ) :
    (exec lab act : Proc ℓ σ ε α).run s = (.ok (act s).1, (act s).2) := rfl

@[simp] theorem run_attempt (lab : ℓ) (act : σ → Except ε α × σ) (s : σ) :
    (attempt lab act).run s = act s := rfl

/-- The continuation runs where the first part left the state. -/
theorem run_bind (p : Proc ℓ σ ε α) (f : α → Proc ℓ σ ε β) (s : σ) :
    (p >>= f).run s =
      match p.run s with
      | (.ok a, s') => (f a).run s'
      | (.error e, s') => (.error e, s') := by
  induction p generalizing s with
  | done r =>
    cases r with
    | ok a => rfl
    | error e => rfl
  | stmt lab act k ih => exact ih _ _

theorem run_bind_ok {p : Proc ℓ σ ε α} {s s' : σ} {a : α} (h : p.run s = (.ok a, s'))
    (f : α → Proc ℓ σ ε β) : (p >>= f).run s = (f a).run s' := by
  rw [run_bind, h]

theorem run_bind_error {p : Proc ℓ σ ε α} {s s' : σ} {e : ε} (h : p.run s = (.error e, s'))
    (f : α → Proc ℓ σ ε β) : (p >>= f).run s = (.error e, s') := by
  rw [run_bind, h]

@[simp] theorem orFail_some (a : α) (e : ε) :
    (orFail (some a) e : Proc ℓ σ ε α) = done (.ok a) := rfl

@[simp] theorem orFail_none (e : ε) :
    (orFail none e : Proc ℓ σ ε α) = done (.error e) := rfl

theorem require_pos {p : Prop} [Decidable p] (h : p) (e : ε) :
    (require p e : Proc ℓ σ ε Unit) = done (.ok ()) := if_pos h

theorem require_neg {p : Prop} [Decidable p] (h : ¬ p) (e : ε) :
    (require p e : Proc ℓ σ ε Unit) = done (.error e) := if_neg h

@[simp] theorem forEach_nil (body : γ → Proc ℓ σ ε Unit) : forEach [] body = done (.ok ()) := rfl

@[simp] theorem forEach_cons (x : γ) (xs : List γ) (body : γ → Proc ℓ σ ε Unit) :
    forEach (x :: xs) body = body x >>= fun _ => forEach xs body := rfl

@[simp] theorem run_transaction (lab : ℓ) (body : Proc ℓ σ ε α) (s : σ) :
    (transaction lab body).run s =
      match body.run s with
      | (.ok a, s') => (.ok a, s')
      | (.error e, _) => (.error e, s) := rfl

theorem run_transaction_eq_ok {lab : ℓ} {body : Proc ℓ σ ε α} {s s' : σ} {a : α}
    (h : (transaction lab body).run s = (.ok a, s')) : body.run s = (.ok a, s') := by
  rw [run_transaction] at h
  cases hbody : body.run s with
  | mk r t =>
    cases r with
    | ok b => rwa [hbody] at h
    | error e =>
      rw [hbody] at h
      exact absurd (congrArg Prod.fst h) nofun

/-- What a process ends with becomes a value. -/
theorem run_outcome (p : Proc ℓ σ ε α) (s : σ) :
    p.outcome.run s = (.ok (p.run s).1, (p.run s).2) := by
  induction p generalizing s with
  | done r => rfl
  | stmt lab act k ih => exact ih _ _

/-- A transaction commits or leaves the state alone, and is over. -/
theorem next_transaction (lab : ℓ) (body : Proc ℓ σ ε α) (s : σ) :
    (transaction lab body).next s =
      match body.run s with
      | (.ok a, s') => (done (.ok a), s')
      | (.error e, _) => (done (.error e), s) := by
  unfold transaction attempt next
  cases h : body.run s with
  | mk r s' =>
    cases r with
    | ok a => simp only [h]
    | error e => simp only [h]

/-- Stopped early, a process answers with the error or does what it would have
done. -/
theorem run_failAt (e : ε) (n : ℕ) (p : Proc ℓ σ ε α) (s : σ) :
    ((p.failAt e n).run s).1 = .error e ∨ (p.failAt e n).run s = p.run s := by
  induction n generalizing p s with
  | zero => exact .inl rfl
  | succ n ih =>
    cases p with
    | done r => exact .inr rfl
    | stmt lab act k => exact ih _ _

/-- What succeeds in spite of an interruption is the whole process. -/
theorem run_interrupted_eq_ok {fault : Option (ℕ × ε)} {p : Proc ℓ σ ε α} {s s' : σ} {a : α}
    (h : (p.interrupted fault).run s = (.ok a, s')) : p.run s = (.ok a, s') := by
  cases fault with
  | none => exact h
  | some f =>
    obtain ⟨n, e⟩ := f
    rcases run_failAt e n p s with herror | hsame
    · have hok : ((p.failAt e n).run s).1 = .ok a := congrArg Prod.fst h
      rw [herror] at hok
      exact absurd hok nofun
    · rw [← hsame]
      exact h

/-- A process that succeeds comes to its continuation. -/
theorem run_bind_eq_ok {p : Proc ℓ σ ε α} {f : α → Proc ℓ σ ε β} {s s' : σ} {b : β}
    (h : (p >>= f).run s = (.ok b, s')) :
    ∃ a t, p.run s = (.ok a, t) ∧ (f a).run t = (.ok b, s') := by
  cases hp : p.run s with
  | mk r t =>
    cases r with
    | ok a =>
      rw [run_bind_ok hp] at h
      exact ⟨a, t, rfl, h⟩
    | error e =>
      rw [run_bind_error hp] at h
      exact absurd (congrArg Prod.fst h) nofun

/-- Results that are collected without a change of the state. -/
theorem run_mapEach_ok {xs : List γ} {body : γ → Proc ℓ σ ε α} {g : γ → α} {s : σ}
    (h : ∀ x ∈ xs, (body x).run s = (.ok (g x), s)) :
    (mapEach xs body).run s = (.ok (xs.map g), s) := by
  induction xs with
  | nil => rfl
  | cons x xs ih =>
    have hrest := ih fun y hy => h y (List.mem_cons_of_mem x hy)
    rw [mapEach, run_bind_ok (h x (List.mem_cons_self ..)), run_bind_ok hrest]
    rfl

/-- What is kept of the state, and what is so of each result. -/
theorem run_mapEach_eq_ok {I : σ → Prop} {Q : γ → α → Prop} {xs : List γ}
    {body : γ → Proc ℓ σ ε α} {as : List α} {s t : σ}
    (h : ∀ x ∈ xs, ∀ u a u', I u → (body x).run u = (.ok a, u') → I u' ∧ Q x a) (hs : I s)
    (hrun : (mapEach xs body).run s = (.ok as, t)) : I t ∧ ∀ a ∈ as, ∃ x ∈ xs, Q x a := by
  induction xs generalizing s as with
  | nil =>
    obtain ⟨hr, rfl⟩ := Prod.mk.inj hrun
    rw [← Except.ok.inj hr]
    exact ⟨hs, nofun⟩
  | cons x xs ih =>
    obtain ⟨a, u, hfirst, hrest⟩ := run_bind_eq_ok hrun
    obtain ⟨as', u', hlater, hend⟩ := run_bind_eq_ok hrest
    obtain ⟨hr, rfl⟩ := Prod.mk.inj hend
    obtain ⟨hu, hQ⟩ := h x (List.mem_cons_self ..) s a u hs hfirst
    obtain ⟨ht, hall⟩ := ih (fun y hy => h y (List.mem_cons_of_mem x hy)) hu hlater
    rw [← Except.ok.inj hr]
    refine ⟨ht, fun b hb => ?_⟩
    rcases List.mem_cons.mp hb with rfl | hb
    · exact ⟨x, List.mem_cons_self .., hQ⟩
    · obtain ⟨y, hy, hQ'⟩ := hall b hb
      exact ⟨y, List.mem_cons_of_mem x hy, hQ'⟩

/-- What one of the turns brings about and all of them keep holds in the end. -/
theorem run_mapEach_reaches {I P : σ → Prop} {xs : List γ} {body : γ → Proc ℓ σ ε α} {as : List α}
    {s t : σ} (hI : ∀ x ∈ xs, ∀ u a u', I u → (body x).run u = (.ok a, u') → I u')
    (hP : ∀ x ∈ xs, ∀ u a u', I u → P u → (body x).run u = (.ok a, u') → P u') {x₀ : γ}
    (hx₀ : x₀ ∈ xs) (h₀ : ∀ u a u', I u → (body x₀).run u = (.ok a, u') → P u') (hs : I s)
    (hrun : (mapEach xs body).run s = (.ok as, t)) : I t ∧ P t := by
  induction xs generalizing s as with
  | nil => cases hx₀
  | cons x xs ih =>
    obtain ⟨a, u, hfirst, hrest⟩ := run_bind_eq_ok hrun
    obtain ⟨as', u', hlater, hend⟩ := run_bind_eq_ok hrest
    obtain ⟨-, rfl⟩ := Prod.mk.inj hend
    have hu := hI x (List.mem_cons_self ..) s a u hs hfirst
    have hkept : ∀ y ∈ xs, ∀ v b v', I v → (body y).run v = (.ok b, v') → I v' :=
      fun y hy => hI y (List.mem_cons_of_mem x hy)
    obtain rfl | hmem := List.mem_cons.mp hx₀
    · -- The turn has come, and the others keep what it brings about.
      have hall := run_mapEach_eq_ok (I := fun v => I v ∧ P v) (Q := fun _ _ => True)
        (fun y hy v b v' hv hbody => ⟨⟨hkept y hy v b v' hv.1 hbody,
          hP y (List.mem_cons_of_mem _ hy) v b v' hv.1 hv.2 hbody⟩, trivial⟩)
        ⟨hu, h₀ s a u hs hfirst⟩ hlater
      exact hall.1
    · exact ih hkept (fun y hy => hP y (List.mem_cons_of_mem x hy)) hmem hu hlater

/-! ## What every statement does -/

namespace Every

variable {A : σ → σ → Prop}

theorem bind {p : Proc ℓ σ ε α} {f : α → Proc ℓ σ ε β} (hp : p.Every A)
    (hf : ∀ a, (f a).Every A) : (p >>= f).Every A := by
  induction p with
  | done r =>
    cases r with
    | ok a => exact hf a
    | error e => trivial
  | stmt lab act k ih => exact ⟨hp.1, fun b => ih b (hp.2 b)⟩

theorem require (p : Prop) [Decidable p] (e : ε) :
    (Proc.require p e : Proc ℓ σ ε Unit).Every A := by
  unfold Proc.require
  split <;> trivial

theorem orFail (o : Option α) (e : ε) : (Proc.orFail o e : Proc ℓ σ ε α).Every A := by
  cases o <;> trivial

/-- A condition the code checks may be used in what follows. -/
theorem require_bind {p : Prop} [Decidable p] {e : ε} {f : Unit → Proc ℓ σ ε α}
    (h : p → (f ()).Every A) : (Proc.require p e >>= f).Every A := by
  by_cases hp : p
  · rw [require_pos hp]
    exact h hp
  · rw [require_neg hp]
    trivial

theorem forEach {xs : List γ} {body : γ → Proc ℓ σ ε Unit} (h : ∀ x ∈ xs, (body x).Every A) :
    (Proc.forEach xs body).Every A := by
  induction xs with
  | nil => trivial
  | cons x xs ih =>
    exact (h x (List.mem_cons_self ..)).bind fun _ => ih fun y hy => h y (List.mem_cons_of_mem x hy)

theorem mapEach {xs : List γ} {body : γ → Proc ℓ σ ε α} (h : ∀ x ∈ xs, (body x).Every A) :
    (Proc.mapEach xs body).Every A := by
  induction xs with
  | nil => trivial
  | cons x xs ih =>
    refine (h x (List.mem_cons_self ..)).bind fun a => ?_
    exact (ih fun y hy => h y (List.mem_cons_of_mem x hy)).bind fun as => trivial

theorem imp {B : σ → σ → Prop} {p : Proc ℓ σ ε α} (hp : p.Every A)
    (h : ∀ s s', A s s' → B s s') : p.Every B := by
  induction p with
  | done r => trivial
  | stmt lab act k ih => exact ⟨fun s => h _ _ (hp.1 s), fun b => ih b (hp.2 b)⟩

theorem and {B : σ → σ → Prop} {p : Proc ℓ σ ε α} (hA : p.Every A) (hB : p.Every B) :
    p.Every fun s s' => A s s' ∧ B s s' := by
  induction p with
  | done r => trivial
  | stmt lab act k ih => exact ⟨fun s => ⟨hA.1 s, hB.1 s⟩, fun b => ih b (hA.2 b) (hB.2 b)⟩

theorem outcome {p : Proc ℓ σ ε α} (hp : p.Every A) : p.outcome.Every A := by
  induction p with
  | done r => trivial
  | stmt lab act k ih => exact ⟨hp.1, fun b => ih b (hp.2 b)⟩

/-- What every statement does, an execution does. -/
theorem run (hrefl : ∀ s, A s s) (htrans : ∀ {a b c}, A a b → A b c → A a c)
    {p : Proc ℓ σ ε α} (hp : p.Every A) (s : σ) : A s (p.run s).2 := by
  induction p generalizing s with
  | done r => exact hrefl s
  | stmt lab act k ih => exact htrans (hp.1 s) (ih _ (hp.2 _) _)

theorem transaction (hrefl : ∀ s, A s s) (htrans : ∀ {a b c}, A a b → A b c → A a c)
    (lab : ℓ) {p : Proc ℓ σ ε α} (hp : p.Every A) : (Proc.transaction lab p).Every A := by
  refine ⟨fun s => ?_, fun _ => trivial⟩
  have hrun := hp.run hrefl htrans s
  cases h : p.run s with
  | mk r t =>
    rw [h] at hrun
    cases r with
    | ok a => simpa only [h] using hrun
    | error e => simpa only [h] using hrefl s

/-- A transaction is one statement: what a commit does is what counts. -/
theorem of_commit (hrefl : ∀ s, A s s) (lab : ℓ) {p : Proc ℓ σ ε α}
    (h : ∀ s a s', p.run s = (.ok a, s') → A s s') : (Proc.transaction lab p).Every A := by
  refine ⟨fun s => ?_, fun _ => trivial⟩
  cases hrun : p.run s with
  | mk r t =>
    cases r with
    | ok a => simpa only [hrun] using h s a t hrun
    | error e => simpa only [hrun] using hrefl s

end Every

namespace Succeeds

theorem bind {p : Proc ℓ σ ε α} {f : α → Proc ℓ σ ε β} (hp : p.Succeeds)
    (hf : ∀ a, (f a).Succeeds) : (p >>= f).Succeeds := by
  induction p with
  | done r =>
    cases r with
    | ok a => exact hf a
    | error e => exact hp.elim
  | stmt lab act k ih => exact fun b => ih b (hp b)

theorem exec (lab : ℓ) (act : σ → α × σ) : (Proc.exec lab act : Proc ℓ σ ε α).Succeeds :=
  fun _ => trivial

theorem mapEach {xs : List γ} {body : γ → Proc ℓ σ ε α} (h : ∀ x ∈ xs, (body x).Succeeds) :
    (Proc.mapEach xs body).Succeeds := by
  induction xs with
  | nil => trivial
  | cons x xs ih =>
    refine (h x (List.mem_cons_self ..)).bind fun a => ?_
    refine (ih fun y hy => h y (List.mem_cons_of_mem x hy)).bind fun as => ?_
    trivial

end Succeeds

/-! ## What a statement does under its label -/

/-- Every statement a process can come to changes the state as `D` has it for its label. -/
def EveryStep (D : ℓ → σ → σ → Prop) : Proc ℓ σ ε α → Prop
  | done _ => True
  | stmt lab act k => (∀ s, D lab s (act s).2) ∧ ∀ b, (k b).EveryStep D

namespace EveryStep

variable {D : ℓ → σ → σ → Prop}

theorem of_every {A : σ → σ → Prop} (hA : ∀ lab s s', A s s' → D lab s s') {p : Proc ℓ σ ε α}
    (hp : p.Every A) : p.EveryStep D := by
  induction p with
  | done r => trivial
  | stmt lab act k ih =>
    constructor
    · intro s
      exact hA lab s _ (hp.1 s)
    · intro b
      exact ih b (hp.2 b)

theorem bind {p : Proc ℓ σ ε α} {f : α → Proc ℓ σ ε β} (hp : p.EveryStep D)
    (hf : ∀ a, (f a).EveryStep D) : (p >>= f).EveryStep D := by
  induction p with
  | done r =>
    cases r with
    | ok a => exact hf a
    | error e => trivial
  | stmt lab act k ih =>
    constructor
    · exact hp.1
    · intro b
      exact ih b (hp.2 b)

theorem require (p : Prop) [Decidable p] (e : ε) :
    (Proc.require p e : Proc ℓ σ ε Unit).EveryStep D := by
  by_cases h : p
  · rw [require_pos h]
    trivial
  · rw [require_neg h]
    trivial

/-- What comes after a check may use it. -/
theorem require_bind {p : Prop} [Decidable p] {e : ε} {f : Unit → Proc ℓ σ ε α}
    (hf : p → (f ()).EveryStep D) : (Proc.require p e >>= f).EveryStep D := by
  by_cases h : p
  · rw [require_pos h]
    exact hf h
  · rw [require_neg h]
    trivial

theorem orFail (o : Option α) (e : ε) : (Proc.orFail o e : Proc ℓ σ ε α).EveryStep D := by
  cases o with
  | some a => trivial
  | none => trivial

theorem orFail_bind {o : Option β} {e : ε} {f : β → Proc ℓ σ ε α}
    (hf : ∀ b, o = some b → (f b).EveryStep D) : (Proc.orFail o e >>= f).EveryStep D := by
  cases o with
  | some b => exact hf b rfl
  | none => trivial

theorem forEach {xs : List γ} {body : γ → Proc ℓ σ ε Unit}
    (h : ∀ x ∈ xs, (body x).EveryStep D) : (Proc.forEach xs body).EveryStep D := by
  induction xs with
  | nil => trivial
  | cons x xs ih =>
    have hrest := ih fun y hy => h y (List.mem_cons_of_mem x hy)
    exact (h x (List.mem_cons_self ..)).bind fun _ => hrest

theorem mapEach {xs : List γ} {body : γ → Proc ℓ σ ε α}
    (h : ∀ x ∈ xs, (body x).EveryStep D) : (Proc.mapEach xs body).EveryStep D := by
  induction xs with
  | nil => trivial
  | cons x xs ih =>
    have hrest := ih fun y hy => h y (List.mem_cons_of_mem x hy)
    exact (h x (List.mem_cons_self ..)).bind fun _ => hrest.bind fun _ => trivial

theorem outcome {p : Proc ℓ σ ε α} (hp : p.EveryStep D) : p.outcome.EveryStep D := by
  induction p with
  | done r => trivial
  | stmt lab act k ih => exact ⟨hp.1, fun b => ih b (hp.2 b)⟩

/-- A transaction does what its body does when it commits. -/
theorem transaction {lab : ℓ} {p : Proc ℓ σ ε α} (hrefl : ∀ s, D lab s s)
    (h : ∀ s a s', p.run s = (.ok a, s') → D lab s s') :
    (Proc.transaction lab p).EveryStep D := by
  constructor
  · intro s
    cases hrun : p.run s with
    | mk r t =>
      cases r with
      | ok a => simpa only [hrun] using h s a t hrun
      | error e => simpa only [hrun] using hrefl s
  · intro _
    trivial

/-- Where the label does not matter. -/
theorem every {A : σ → σ → Prop} {p : Proc ℓ σ ε α} (hp : p.EveryStep fun _ => A) :
    p.Every A := by
  induction p with
  | done r => trivial
  | stmt lab act k ih => exact ⟨hp.1, fun b => ih b (hp.2 b)⟩

theorem imp {D' : ℓ → σ → σ → Prop} {p : Proc ℓ σ ε α} (hp : p.EveryStep D)
    (h : ∀ lab s s', D lab s s' → D' lab s s') : p.EveryStep D' := by
  induction p with
  | done r => trivial
  | stmt lab act k ih =>
    constructor
    · intro s
      exact h lab s _ (hp.1 s)
    · intro b
      exact ih b (hp.2 b)

/-- An execution whose statements satisfy a condition does what such statements do. -/
theorem run {A : ℓ → σ → Prop} {R : σ → σ → Prop} (hrefl : ∀ s, R s s)
    (htrans : ∀ {a b c}, R a b → R b c → R a c) (hR : ∀ lab s s', D lab s s' → A lab s → R s s')
    {p : Proc ℓ σ ε α} (hp : p.EveryStep D) {s : σ} (hA : p.Meets A s) : R s (p.run s).2 := by
  induction p generalizing s with
  | done r => exact hrefl s
  | stmt lab act k ih =>
    have hstep := hR lab s _ (hp.1 s) hA.1
    exact htrans hstep (ih _ (hp.2 _) hA.2)

end EveryStep

/-! ## What an execution meets -/

namespace Meets

variable {A : ℓ → σ → Prop} {s : σ}

/-- What comes after a part of the code is met where that part leaves the state. -/
theorem bind {p : Proc ℓ σ ε α} {f : α → Proc ℓ σ ε β} (hp : p.Meets A s)
    (hf : ∀ a s', p.run s = (.ok a, s') → (f a).Meets A s') : (p >>= f).Meets A s := by
  induction p generalizing s with
  | done r =>
    cases r with
    | ok a => exact hf a s rfl
    | error e => trivial
  | stmt lab act k ih => exact ⟨hp.1, ih _ hp.2 hf⟩

theorem require {p : Prop} [Decidable p] {e : ε} {f : Unit → Proc ℓ σ ε α}
    (hf : p → (f ()).Meets A s) : (Proc.require p e >>= f).Meets A s := by
  by_cases h : p
  · rw [require_pos h]
    exact hf h
  · rw [require_neg h]
    trivial

theorem orFail {o : Option β} {e : ε} {f : β → Proc ℓ σ ε α}
    (hf : ∀ b, o = some b → (f b).Meets A s) : (Proc.orFail o e >>= f).Meets A s := by
  cases o with
  | some b => exact hf b rfl
  | none => trivial

theorem imp {B : ℓ → σ → Prop} {p : Proc ℓ σ ε α} (hA : p.Meets A s)
    (h : ∀ lab s, A lab s → B lab s) : p.Meets B s := by
  induction p generalizing s with
  | done r => trivial
  | stmt lab act k ih => exact ⟨h _ _ hA.1, ih _ hA.2⟩

theorem and {B : ℓ → σ → Prop} {p : Proc ℓ σ ε α} (hA : p.Meets A s) (hB : p.Meets B s) :
    p.Meets (fun lab s => A lab s ∧ B lab s) s := by
  induction p generalizing s with
  | done r => trivial
  | stmt lab act k ih => exact ⟨⟨hA.1, hB.1⟩, ih _ hA.2 hB.2⟩

theorem forEach {xs : List γ} {body : γ → Proc ℓ σ ε Unit}
    (hbody : ∀ x ∈ xs, ∀ s, (body x).Meets A s) (s : σ) : (Proc.forEach xs body).Meets A s := by
  induction xs generalizing s with
  | nil => trivial
  | cons x xs ih =>
    exact (hbody x (List.mem_cons_self ..) s).bind fun _ s' _ =>
      ih (fun y hy => hbody y (List.mem_cons_of_mem x hy)) s'

/-- What every statement does, has been done before every statement. -/
theorem of_every {R : σ → σ → Prop} (hrefl : ∀ s, R s s)
    (htrans : ∀ {a b c}, R a b → R b c → R a c) {p : Proc ℓ σ ε α} (hp : p.Every R) (s : σ) :
    p.Meets (fun _ t => R s t) s := by
  suffices h : ∀ t, R s t → p.Meets (fun _ t => R s t) t from h s (hrefl s)
  induction p with
  | done r =>
    intro _ _
    trivial
  | stmt lab act k ih =>
    intro t ht
    exact ⟨ht, ih _ (hp.2 _) _ (htrans ht (hp.1 t))⟩

theorem mapEach {xs : List γ} {body : γ → Proc ℓ σ ε α}
    (hbody : ∀ x ∈ xs, ∀ s, (body x).Meets A s) (s : σ) : (Proc.mapEach xs body).Meets A s := by
  induction xs generalizing s with
  | nil => trivial
  | cons x xs ih =>
    refine (hbody x (List.mem_cons_self ..) s).bind fun a s' _ => ?_
    refine (ih (fun y hy => hbody y (List.mem_cons_of_mem x hy)) s').bind fun _ _ _ => ?_
    trivial

end Meets

/-- A part of the code and what comes after it. -/
theorem meets_bind {A : ℓ → σ → Prop} {s : σ} {p : Proc ℓ σ ε α} {f : α → Proc ℓ σ ε β}
    (h : (p >>= f).Meets A s) :
    p.Meets A s ∧ ∀ a t, p.run s = (.ok a, t) → (f a).Meets A t := by
  induction p generalizing s with
  | done r =>
    constructor
    · trivial
    · intro a t hrun
      obtain ⟨rfl, rfl⟩ := Prod.mk.inj hrun
      exact h
  | stmt lab act k ih =>
    obtain ⟨hk, hf⟩ := ih _ h.2
    exact ⟨⟨h.1, hk⟩, hf⟩

/-! ## How an execution ends -/

/-- Executed with nothing else in between, a process ends with an answer and a state
that satisfy `Q`. -/
def Ends (Q : Except ε α → σ → Prop) (p : Proc ℓ σ ε α) (s : σ) : Prop :=
  Q (p.run s).1 (p.run s).2

namespace Ends

variable {Q : Except ε α → σ → Prop} {s : σ}

theorem bind {Q' : Except ε β → σ → Prop} {p : Proc ℓ σ ε β} {f : β → Proc ℓ σ ε α}
    (hp : p.Ends Q' s) (hok : ∀ b t, Q' (.ok b) t → (f b).Ends Q t)
    (herr : ∀ e t, Q' (.error e) t → Q (.error e) t) : (p >>= f).Ends Q s := by
  unfold Ends at hp ⊢
  rw [run_bind]
  cases h : p.run s with
  | mk r t =>
    rw [h] at hp
    cases r with
    | ok b => exact hok b t hp
    | error e => exact herr e t hp

theorem imp {Q' : Except ε α → σ → Prop} {p : Proc ℓ σ ε α} (hp : p.Ends Q' s)
    (h : ∀ r t, Q' r t → Q r t) : p.Ends Q s := h _ _ hp

theorem require {p : Prop} [Decidable p] {e : ε} {f : Unit → Proc ℓ σ ε α}
    (hok : p → (f ()).Ends Q s) (herr : ¬ p → Q (.error e) s) :
    (Proc.require p e >>= f).Ends Q s := by
  by_cases h : p
  · rw [require_pos h]
    exact hok h
  · rw [require_neg h]
    exact herr h

theorem orFail {o : Option β} {e : ε} {f : β → Proc ℓ σ ε α}
    (hok : ∀ b, o = some b → (f b).Ends Q s) (herr : o = none → Q (.error e) s) :
    (Proc.orFail o e >>= f).Ends Q s := by
  cases o with
  | some b => exact hok b rfl
  | none => exact herr rfl

/-- A transaction that fails leaves the state alone. -/
theorem transaction {lab : ℓ} {body : Proc ℓ σ ε β} {f : β → Proc ℓ σ ε α}
    (hok : ∀ b t, body.run s = (.ok b, t) → (f b).Ends Q t) (herr : ∀ e, Q (.error e) s) :
    (Proc.transaction lab body >>= f).Ends Q s := by
  unfold Ends
  rw [run_bind, run_transaction]
  cases h : body.run s with
  | mk r t =>
    cases r with
    | ok b => exact hok b t h
    | error e => exact herr e

/-- A transaction whose failure is caught. -/
theorem outcome_transaction {lab : ℓ} {body : Proc ℓ σ ε β} {f : Except ε β → Proc ℓ σ ε α}
    (hok : ∀ b t, body.run s = (.ok b, t) → (f (.ok b)).Ends Q t)
    (herr : ∀ e, (f (.error e)).Ends Q s) :
    (Proc.outcome (Proc.transaction lab body) >>= f).Ends Q s := by
  unfold Ends
  rw [run_bind, run_outcome, run_transaction]
  cases h : body.run s with
  | mk r t =>
    cases r with
    | ok b => exact hok b t h
    | error e => exact herr e

/-- What every statement of a part of the code does, the part does. -/
theorem every {A : σ → σ → Prop} (hrefl : ∀ s, A s s) (htrans : ∀ {a b c}, A a b → A b c → A a c)
    {p : Proc ℓ σ ε β} (hp : p.Every A) {f : β → Proc ℓ σ ε α}
    (hok : ∀ b t, A s t → (f b).Ends Q t) (herr : ∀ e t, A s t → Q (.error e) t) :
    (p >>= f).Ends Q s := by
  have hend : p.Ends (fun _ t => A s t) s := hp.run hrefl htrans s
  exact hend.bind hok herr

end Ends

/-! ## Where an execution moves the state -/

/-- Executed with nothing else in between, and if its statements meet a condition, a process
moves the state along a relation. -/
def MovesAlong (A : ℓ → σ → Prop) (R : σ → σ → Prop) (p : Proc ℓ σ ε α) (s : σ) : Prop :=
  p.Meets A s → R s (p.run s).2

namespace MovesAlong

variable {A : ℓ → σ → Prop} {R : σ → σ → Prop} {s : σ}

theorem bind (htrans : ∀ a b c, R a b → R b c → R a c) {p : Proc ℓ σ ε β}
    {f : β → Proc ℓ σ ε α} (hp : p.MovesAlong A R s)
    (hf : ∀ b t, p.run s = (.ok b, t) → (f b).MovesAlong A R t) : (p >>= f).MovesAlong A R s := by
  intro hmeets
  obtain ⟨hfirst, hrest⟩ := meets_bind hmeets
  have hmoved := hp hfirst
  rw [run_bind]
  cases h : p.run s with
  | mk r t =>
    rw [h] at hmoved
    cases r with
    | ok b => exact htrans _ _ _ hmoved (hf b t h (hrest b t h))
    | error e => exact hmoved

theorem require (hrefl : ∀ s, R s s) {p : Prop} [Decidable p] {e : ε} {f : Unit → Proc ℓ σ ε α}
    (hok : p → (f ()).MovesAlong A R s) : (Proc.require p e >>= f).MovesAlong A R s := by
  by_cases h : p
  · rw [require_pos h]
    exact hok h
  · rw [require_neg h]
    intro _
    exact hrefl s

theorem orFail (hrefl : ∀ s, R s s) {o : Option β} {e : ε} {f : β → Proc ℓ σ ε α}
    (hok : ∀ b, o = some b → (f b).MovesAlong A R s) :
    (Proc.orFail o e >>= f).MovesAlong A R s := by
  cases o with
  | some b => exact hok b rfl
  | none =>
    intro _
    exact hrefl s

theorem forEach (hrefl : ∀ s, R s s) (htrans : ∀ a b c, R a b → R b c → R a c) {xs : List γ}
    {body : γ → Proc ℓ σ ε Unit} (hbody : ∀ x ∈ xs, ∀ s, (body x).MovesAlong A R s) (s : σ) :
    (Proc.forEach xs body).MovesAlong A R s := by
  induction xs generalizing s with
  | nil =>
    intro _
    exact hrefl s
  | cons x xs ih =>
    have hrest := ih fun y hy => hbody y (List.mem_cons_of_mem x hy)
    exact (hbody x (List.mem_cons_self ..) s).bind htrans fun _ t _ => hrest t

/-- What statements that meet the condition do. -/
theorem of_everyStep {D : ℓ → σ → σ → Prop} (hrefl : ∀ s, R s s)
    (htrans : ∀ a b c, R a b → R b c → R a c) (hR : ∀ lab s s', D lab s s' → A lab s → R s s')
    {p : Proc ℓ σ ε α} (hp : p.EveryStep D) (s : σ) : p.MovesAlong A R s :=
  fun hmeets => hp.run hrefl (fun h h' => htrans _ _ _ h h') hR hmeets

end MovesAlong

/-! ## A part of the state -/

section Part

variable {τ : Type} {get : τ → σ} {set : σ → τ → τ}

@[simp] theorem onPart_done (r : Except ε α) :
    (done r : Proc ℓ σ ε α).onPart get set = done r := rfl

@[simp] theorem onPart_stmt (lab : ℓ) (act : σ → γ × σ) (k : γ → Proc ℓ σ ε α) :
    (stmt lab act k).onPart get set =
      stmt lab (fun t => ((act (get t)).1, set (act (get t)).2 t)) fun b => (k b).onPart get set :=
  rfl

/-- The rest of the state stays as it is. -/
theorem run_onPart (hget : ∀ x t, get (set x t) = x) (hset : ∀ x y t, set y (set x t) = set y t)
    (hself : ∀ t, set (get t) t = t) (p : Proc ℓ σ ε α) (t : τ) :
    (p.onPart get set).run t = ((p.run (get t)).1, set (p.run (get t)).2 t) := by
  induction p generalizing t with
  | done r => rw [onPart_done, run_done, run_done, hself]
  | stmt lab act k ih => rw [onPart_stmt, run_stmt, run_stmt, ih, hget, hset]

/-- Nothing but the part changes. -/
theorem every_onPart {A : τ → τ → Prop} (hA : ∀ t x, A t (set x t)) (p : Proc ℓ σ ε α) :
    (p.onPart get set).Every A := by
  induction p with
  | done r => trivial
  | stmt lab act k ih =>
    constructor
    · intro t
      exact hA t _
    · exact ih

/-- What every statement does to the part. -/
theorem Every.onPart {A : σ → σ → Prop} {B : τ → τ → Prop}
    (hB : ∀ t x, A (get t) x → B t (set x t)) {p : Proc ℓ σ ε α} (hp : p.Every A) :
    (p.onPart get set).Every B := by
  induction p with
  | done r => trivial
  | stmt lab act k ih =>
    constructor
    · intro t
      exact hB t _ (hp.1 (get t))
    · intro b
      exact ih b (hp.2 b)

end Part

end Proc
end NexusEfos
