/-
Lists in the order of a key, where elements with one key keep the order they had.

There is exactly one such list (`InOrderOf.eq`), and insertion finds it
(`inOrderOf_insertionSort`): whoever sorts by the key and keeps ties in order gets the same list.
-/
import Mathlib.Data.List.Sort

namespace NexusEfos

variable {α κ : Type*} [LinearOrder κ]

/-- A list in the order of a key, where elements with one key are in the order of the file. -/
structure InOrderOf (key : α → κ) (file ordered : List α) : Prop where
  sorted : ordered.Pairwise fun a b => key a ≤ key b
  ties : ∀ k, (ordered.filter fun a => key a = k) = file.filter fun a => key a = k

/-! ## Insertion -/

/-- An element that is inserted comes before those with its key. -/
theorem filter_orderedInsert (key : α → κ) (k : κ) (a : α) (l : List α) :
    ((l.orderedInsert (fun a b => key a ≤ key b) a).filter fun b => key b = k) =
      (a :: l).filter fun b => key b = k := by
  induction l with
  | nil => rfl
  | cons b l ih =>
    rw [List.orderedInsert_cons]
    by_cases hle : key a ≤ key b
    · rw [if_pos hle]
    · rw [if_neg hle]
      -- An element that is passed has a smaller key.
      by_cases ha : key a = k
      · have hb : key b ≠ k := fun h => hle (ha.trans h.symm).le
        simp only [List.filter_cons, decide_eq_true_eq, ha, if_true, if_neg hb] at ih ⊢
        exact ih
      · simp only [List.filter_cons, decide_eq_true_eq, if_neg ha] at ih ⊢
        rw [ih]

theorem inOrderOf_insertionSort (key : α → κ) (file : List α) :
    InOrderOf key file (file.insertionSort fun a b => key a ≤ key b) := by
  constructor
  · have htotal : Std.Total fun a b : α => key a ≤ key b := ⟨fun a b => le_total (key a) (key b)⟩
    have htrans : IsTrans α fun a b : α => key a ≤ key b := ⟨fun _ _ _ => le_trans⟩
    exact List.pairwise_insertionSort _ file
  · intro k
    induction file with
    | nil => rfl
    | cons a file ih =>
      rw [List.insertionSort_cons, filter_orderedInsert, List.filter_cons, List.filter_cons, ih]

/-- An element that comes last and belongs before all the others is sorted to the front. -/
theorem insertionSort_concat {r : α → α → Prop} [DecidableRel r] {x : α} {l : List α}
    (h : ∀ b ∈ l, ¬ r b x) : (l ++ [x]).insertionSort r = x :: l.insertionSort r := by
  induction l with
  | nil => rfl
  | cons a l ih =>
    rw [List.forall_mem_cons] at h
    show ((l ++ [x]).insertionSort r).orderedInsert r a = x :: (l.insertionSort r).orderedInsert r a
    rw [ih h.2, List.orderedInsert_of_not_le _ _ h.1]

/-! ## There is one such list -/

namespace InOrderOf

variable {key : α → κ} {file l₁ l₂ : List α}

theorem mem_of_ties (h : ∀ k, (l₁.filter fun a => key a = k) = l₂.filter fun a => key a = k) {a : α}
    (ha : a ∈ l₁) : a ∈ l₂ := by
  have hfiltered : a ∈ l₁.filter fun b => key b = key a :=
    List.mem_filter.mpr ⟨ha, decide_eq_true rfl⟩
  rw [h] at hfiltered
  exact (List.mem_filter.mp hfiltered).1

/-- Two lists in order with the same ties. -/
theorem eq_of_ties (hsorted₁ : l₁.Pairwise fun a b => key a ≤ key b)
    (hsorted₂ : l₂.Pairwise fun a b => key a ≤ key b)
    (hties : ∀ k, (l₁.filter fun a => key a = k) = l₂.filter fun a => key a = k) : l₁ = l₂ := by
  induction l₁ generalizing l₂ with
  | nil =>
    cases l₂ with
    | nil => rfl
    | cons b l₂ =>
      have hb := mem_of_ties (fun k => (hties k).symm) (List.mem_cons_self ..)
      exact absurd hb List.not_mem_nil
  | cons a l₁ ih =>
    cases l₂ with
    | nil =>
      have ha := mem_of_ties hties (List.mem_cons_self ..)
      exact absurd ha List.not_mem_nil
    | cons b l₂ =>
      obtain ⟨ha, hrest₁⟩ := List.pairwise_cons.mp hsorted₁
      obtain ⟨hb, hrest₂⟩ := List.pairwise_cons.mp hsorted₂
      have hab : key a ≤ key b := by
        have hin := mem_of_ties (fun k => (hties k).symm) (List.mem_cons_self (a := b))
        rcases List.mem_cons.mp hin with heq | hin
        · rw [heq]
        · exact ha b hin
      have hba : key b ≤ key a := by
        have hin := mem_of_ties hties (List.mem_cons_self (a := a))
        rcases List.mem_cons.mp hin with heq | hin
        · rw [heq]
        · exact hb a hin
      have hkey : key b = key a := le_antisymm hba hab
      -- The two heads are the first elements with their key.
      have hheads := hties (key a)
      simp only [List.filter_cons, hkey, decide_true, if_true] at hheads
      obtain ⟨hhead, -⟩ := List.cons.inj hheads
      subst hhead
      have hrest : l₁ = l₂ := by
        apply ih hrest₁ hrest₂
        intro k
        have hk := hties k
        by_cases hak : key a = k
        · simp only [List.filter_cons, hak, decide_true, if_true] at hk
          exact (List.cons.inj hk).2
        · simp only [List.filter_cons, hak, decide_false, Bool.false_eq_true, if_false] at hk
          exact hk
      rw [hrest]

theorem eq (h₁ : InOrderOf key file l₁) (h₂ : InOrderOf key file l₂) : l₁ = l₂ := by
  apply eq_of_ties h₁.sorted h₂.sorted
  intro k
  rw [h₁.ties, h₂.ties]

end InOrderOf

end NexusEfos
