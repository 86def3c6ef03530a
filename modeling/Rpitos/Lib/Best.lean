import Mathlib.Data.List.MinMax

/-!
# Lib.Best

One pass along a list for the first of its best elements, and for how good the best of the others
is. `bestStep f` is the body of the pass, `best_scan` what the pass ends with.
-/

namespace Rpitos

variable {α β : Type} [LinearOrder β] [OrderBot β] {f : α → β}

/-- How good the best of `xs` is, `⊥` when there is none. -/
def highest (f : α → β) (xs : List α) : β := (xs.map f).foldr max ⊥

@[simp] theorem highest_nil : highest f [] = ⊥ := rfl

@[simp] theorem highest_cons (x : α) (xs : List α) :
    highest f (x :: xs) = max (f x) (highest f xs) := rfl

@[simp] theorem highest_append (xs ys : List α) :
    highest f (xs ++ ys) = max (highest f xs) (highest f ys) := by
  induction xs with
  | nil => exact (max_eq_right bot_le).symm
  | cons x xs ih => rw [List.cons_append, highest_cons, highest_cons, ih, max_assoc]

theorem le_highest {xs : List α} {x : α} (hx : x ∈ xs) : f x ≤ highest f xs :=
  List.le_max_of_le (List.mem_map_of_mem hx) le_rfl

theorem highest_le {xs : List α} {b : β} (h : ∀ x ∈ xs, f x ≤ b) : highest f xs ≤ b := by
  refine List.max_le_of_forall_le _ b fun y hy => ?_
  obtain ⟨x, hx, rfl⟩ := List.mem_map.mp hy
  exact h x hx

/-- The best is one of the list. -/
theorem highest_source (xs : List α) : highest f xs = ⊥ ∨ ∃ x ∈ xs, f x = highest f xs := by
  induction xs with
  | nil => exact .inl rfl
  | cons x xs ih =>
    rw [highest_cons]
    rcases le_total (highest f xs) (f x) with h | h
    · rw [max_eq_left h]
      exact .inr ⟨x, by simp, rfl⟩
    · rw [max_eq_right h]
      rcases ih with ih | ⟨y, hy, ih⟩
      · exact .inl ih
      · exact .inr ⟨y, by simp [hy], ih⟩

/-- A bound that one of the list attains. -/
theorem highest_eq {xs : List α} {b : β} (hle : ∀ x ∈ xs, f x ≤ b)
    (hatt : b = ⊥ ∨ ∃ x ∈ xs, f x = b) : highest f xs = b := by
  refine le_antisymm (highest_le hle) ?_
  rcases hatt with rfl | ⟨x, hx, rfl⟩
  · exact bot_le
  · exact le_highest hx

/-- Of `before`, `x` and `after`, in this order, `x` is the first of the best. -/
structure FirstBest (f : α → β) (before : List α) (x : α) (after : List α) : Prop where
  before_lt : ∀ y ∈ before, f y < f x
  after_le : ∀ y ∈ after, f y ≤ f x

/-- One element more: the best so far, and how good the best of the others is. -/
def bestStep (f : α → β) (r : α × β) (x : α) : α × β :=
  if f r.1 < f x then (x, max r.2 (f r.1)) else (r.1, max r.2 (f x))

/-- The pass keeps the elements it has seen split at the first of the best. -/
theorem best_fold (rest : List α) : ∀ (before : List α) (x : α) (after : List α),
    FirstBest f before x after →
    ∃ before' y after',
      rest.foldl (bestStep f) (x, highest f (before ++ after)) =
        (y, highest f (before' ++ after')) ∧
      before ++ x :: after ++ rest = before' ++ y :: after' ∧ FirstBest f before' y after' := by
  induction rest with
  | nil =>
    intro before x after h
    exact ⟨before, x, after, rfl, List.append_nil _, h⟩
  | cons y rest ih =>
    intro before x after h
    rw [List.foldl_cons]
    unfold bestStep
    dsimp only
    split
    · -- all that has been seen goes before the new best
      rename_i hlt
      have hall : ∀ z ∈ before ++ x :: after, f z < f y := by
        intro z hz
        simp only [List.mem_append, List.mem_cons] at hz
        rcases hz with hz | rfl | hz
        · exact (h.before_lt z hz).trans hlt
        · exact hlt
        · exact (h.after_le z hz).trans_lt hlt
      have htop : max (highest f (before ++ after)) (f x) = highest f (before ++ x :: after ++ []) := by
        simp only [highest_append, highest_cons, highest_nil, bot_le, max_eq_left, max_assoc]
        rw [max_comm (highest f after)]
      rw [htop]
      obtain ⟨before', z, after', h1, h2, h3⟩ := ih (before ++ x :: after) y []
        ⟨hall, by simp⟩
      exact ⟨before', z, after', h1, by rw [← h2]; simp, h3⟩
    · rename_i hle
      have htop : max (highest f (before ++ after)) (f y) = highest f (before ++ (after ++ [y])) := by
        simp only [highest_append, highest_cons, highest_nil, bot_le, max_eq_left, max_assoc]
      rw [htop]
      have hafter : ∀ z ∈ after ++ [y], f z ≤ f x := by
        intro z hz
        rcases List.mem_append.mp hz with hz | hz
        · exact h.after_le z hz
        · rw [List.mem_singleton.mp hz]; exact not_lt.mp hle
      obtain ⟨before', z, after', h1, h2, h3⟩ := ih before x (after ++ [y])
        ⟨h.before_lt, hafter⟩
      exact ⟨before', z, after', h1, by rw [← h2]; simp, h3⟩

/-- The pass along a whole list. -/
theorem best_scan (f : α → β) (first : α) (rest : List α) : ∃ before x after,
    rest.foldl (bestStep f) (first, ⊥) = (x, highest f (before ++ after)) ∧
    first :: rest = before ++ x :: after ∧ FirstBest f before x after :=
  best_fold rest [] first [] ⟨by simp, by simp⟩

end Rpitos
