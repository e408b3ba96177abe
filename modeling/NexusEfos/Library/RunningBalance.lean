/-
Entries that carry a balance.

Each entry moves a balance and notes what it is afterwards.  In a chain every entry takes over the
balance that the one before it has noted (`Carries`).  Where the entries stand in the order of their
times, the balance at a moment can be read off the last entry before it (`balanceBefore`), and
the entries between two moments lead from the balance at one to that at the other (`Carries.between`).
-/
import Mathlib.Algebra.BigOperators.Group.List.Basic
import Mathlib.Order.Lattice

namespace NexusEfos
namespace RunningBalance

variable {α M τ : Type} (change after : α → M)

section Chains

variable [AddCommMonoid M]

/-- The entries lead from one balance to another. -/
def Carries : M → List α → M → Prop
  | b, [], c => c = b
  | b, x :: xs, c => after x = b + change x ∧ Carries (after x) xs c

variable {change after} {b c d : M} {xs ys : List α}

theorem Carries.append (h : Carries change after b xs c) (h' : Carries change after c ys d) :
    Carries change after b (xs ++ ys) d := by
  induction xs generalizing b with
  | nil =>
    have hc : c = b := h
    subst hc
    exact h'
  | cons x xs ih => exact ⟨h.1, ih h.2⟩

/-- A chain comes apart anywhere. -/
theorem Carries.of_append (h : Carries change after b (xs ++ ys) d) :
    ∃ c, Carries change after b xs c ∧ Carries change after c ys d := by
  induction xs generalizing b with
  | nil => exact ⟨b, rfl, h⟩
  | cons x xs ih =>
    obtain ⟨c, hxs, hys⟩ := ih h.2
    exact ⟨c, ⟨h.1, hxs⟩, hys⟩

/-- The entries move the balance by the sum of their changes. -/
theorem Carries.eq_add_sum (h : Carries change after b xs c) : c = b + (xs.map change).sum := by
  induction xs generalizing b with
  | nil => exact h.trans (add_zero b).symm
  | cons x xs ih =>
    have hrest := ih h.2
    rw [h.1] at hrest
    rw [hrest, List.map_cons, List.sum_cons, add_assoc]

/-- The last entry notes the balance at the end. -/
theorem Carries.eq_last (h : Carries change after b xs c) :
    c = (xs.getLast?.map after).getD b := by
  induction xs generalizing b with
  | nil => exact h
  | cons x xs ih =>
    have hrest := ih h.2
    cases xs with
    | nil => exact hrest
    | cons y ys =>
      rw [List.getLast?_cons_cons]
      rw [hrest]
      cases hlast : (y :: ys).getLast? with
      | none => exact absurd (List.getLast?_eq_none_iff.mp hlast) (List.cons_ne_nil y ys)
      | some z => rfl

end Chains

/-! ## Entries in the order of their times -/

section Times

variable [LinearOrder τ] (time : α → τ)

/-- The balance that the last entry before a moment has noted. -/
def balanceBefore (b : M) (xs : List α) (t : τ) : M :=
  ((xs.filter fun x => time x < t).getLast?.map after).getD b

/-- The entries from one moment on and before another one. -/
def between (xs : List α) (s t : τ) : List α := xs.filter fun x => s ≤ time x ∧ time x < t

variable {change after time} {xs : List α}

/-- What lies before a moment stands in front of what does not. -/
theorem filter_append_filter (h : xs.Pairwise fun x y => time x ≤ time y) (t : τ) :
    (xs.filter fun x => time x < t) ++ (xs.filter fun x => t ≤ time x) = xs := by
  induction xs with
  | nil => rfl
  | cons x xs ih =>
    obtain ⟨hhead, htail⟩ := List.pairwise_cons.mp h
    rcases lt_or_ge (time x) t with hlt | hge
    · have hrest := ih htail
      rw [List.filter_cons_of_pos (by simpa using hlt),
        List.filter_cons_of_neg (by simpa using hlt), List.cons_append, hrest]
    · have hlater : ∀ y ∈ x :: xs, t ≤ time y := by
        intro y hy
        rcases List.mem_cons.mp hy with rfl | hy
        · exact hge
        · exact hge.trans (hhead y hy)
      have hnone : ((x :: xs).filter fun x => time x < t) = [] :=
        List.filter_eq_nil_iff.mpr fun y hy => by simpa using hlater y hy
      have hall : ((x :: xs).filter fun x => t ≤ time x) = x :: xs :=
        List.filter_eq_self.mpr fun y hy => by simpa using hlater y hy
      rw [hnone, hall, List.nil_append]

/-- What lies before a moment is what lies before an earlier one and what lies between them. -/
theorem filter_append_between (h : xs.Pairwise fun x y => time x ≤ time y) {s t : τ} (hst : s ≤ t) :
    (xs.filter fun x => time x < s) ++ between time xs s t = xs.filter fun x => time x < t := by
  have hsplit := filter_append_filter (h.filter fun x => decide (time x < t)) s
  rw [List.filter_filter, List.filter_filter] at hsplit
  rw [← hsplit]
  congr 1
  · apply List.filter_congr
    intro x _
    by_cases hx : time x < s
    · simp [hx, hx.trans_le hst]
    · simp [hx]
  · apply List.filter_congr
    intro x _
    simp

variable [AddCommMonoid M] {b c : M}

theorem Carries.filter_lt (h : Carries change after b xs c)
    (hsorted : xs.Pairwise fun x y => time x ≤ time y) (t : τ) :
    Carries change after b (xs.filter fun x => time x < t) (balanceBefore after time b xs t) := by
  rw [← filter_append_filter hsorted t] at h
  obtain ⟨d, hbefore, -⟩ := h.of_append
  have hd := hbefore.eq_last
  rw [balanceBefore, ← hd]
  exact hbefore

/-- The entries between two moments lead from the balance at one to the balance at the other. -/
theorem Carries.between (h : Carries change after b xs c)
    (hsorted : xs.Pairwise fun x y => time x ≤ time y) {s t : τ} (hst : s ≤ t) :
    Carries change after (balanceBefore after time b xs s) (between time xs s t)
      (balanceBefore after time b xs t) := by
  have hlate := h.filter_lt hsorted t
  rw [← filter_append_between hsorted hst] at hlate
  obtain ⟨d, hearly, hbetween⟩ := hlate.of_append
  have hd := hearly.eq_last
  rw [balanceBefore, ← hd]
  exact hbetween

end Times

end RunningBalance
end NexusEfos
