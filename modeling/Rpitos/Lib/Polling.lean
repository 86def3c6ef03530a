import Mathlib.Data.Nat.Init

/-!
# Lib.Polling

Loops over the values that the reads of a register give, one value for each read. `spin` waits while
the values are busy, `pump` moves one item at each value that is ready and gives up at one that says
stop; both have a budget.

* `spin_settles`, `spin_spent`: where a wait ends, and when it has spent its budget.
* `outlasts_spin`: waits one after the other on one budget.
* `pump_cut`: when a transfer gives up, and where.
-/

namespace Rpitos

variable {α : Type}

/-- The `n` values from `pos` on are all of the kind. -/
def AllFrom (p : α → Bool) (s : Nat → α) (pos n : Nat) : Prop := ∀ i < n, p (s (pos + i))

/-- How many of the `n` values from `pos` on are of the kind. -/
def hits (p : α → Bool) (s : Nat → α) (pos : Nat) : Nat → Nat
  | 0 => 0
  | n + 1 => (if p (s pos) then 1 else 0) + hits p s (pos + 1) n

/-- `value & mask` of a register of flags. -/
def flagged (mask value : UInt32) : Bool := value &&& mask ≠ 0

section Counts

variable {p : α → Bool} {s : Nat → α} {pos n : Nat}

@[simp] theorem allFrom_zero : AllFrom p s pos 0 := fun i hi => absurd hi (Nat.not_lt_zero i)

theorem allFrom_succ : AllFrom p s pos (n + 1) ↔ p (s pos) ∧ AllFrom p s (pos + 1) n := by
  constructor
  · intro h
    refine ⟨h 0 (Nat.succ_pos n), fun i hi => ?_⟩
    have := h (i + 1) (Nat.succ_lt_succ hi)
    rwa [show pos + 1 + i = pos + (i + 1) by omega]
  · rintro ⟨hfirst, hrest⟩ i hi
    cases i with
    | zero => exact hfirst
    | succ i =>
      rw [show pos + (i + 1) = pos + 1 + i by omega]
      exact hrest i (Nat.lt_of_succ_lt_succ hi)

theorem hits_none (h : AllFrom (fun a => !p a) s pos n) : hits p s pos n = 0 := by
  induction n generalizing pos with
  | zero => rfl
  | succ n ih =>
    obtain ⟨hfirst, hrest⟩ := allFrom_succ.mp h
    have hno : ¬ p (s pos) := by simpa using hfirst
    rw [hits, if_neg hno, ih hrest]

theorem hits_all (h : AllFrom p s pos n) : hits p s pos n = n := by
  induction n generalizing pos with
  | zero => rfl
  | succ n ih =>
    obtain ⟨hfirst, hrest⟩ := allFrom_succ.mp h
    rw [hits, if_pos hfirst, ih hrest, Nat.add_comm]

end Counts

/-! ## Waits -/

/-- `while (busy(read) && budget > 0) budget--`. Gives the number of reads so far and the budget. -/
def spin (busy : α → Bool) (s : Nat → α) (pos : Nat) : Nat → Nat × Nat
  | 0 => (pos + 1, 0)
  | budget + 1 => if busy (s pos) then spin busy s (pos + 1) budget else (pos + 1, budget + 1)

/-- A wait from `pos` on ends at `q`: behind the first value that is not busy, or behind one value
more than the budget. -/
def Settles (busy : α → Bool) (s : Nat → α) (pos budget q : Nat) : Prop :=
  ∃ n ≤ budget, q = pos + n + 1 ∧ AllFrom busy s pos n ∧ (n < budget → ¬ busy (s (pos + n)))

section Spin

variable (busy : α → Bool) (s : Nat → α) (pos budget : Nat)

theorem spin_settles (q : Nat) : (spin busy s pos budget).1 = q ↔ Settles busy s pos budget q := by
  induction budget generalizing pos with
  | zero =>
    constructor
    · rintro rfl
      exact ⟨0, Nat.le_refl 0, rfl, allFrom_zero, fun h => absurd h (Nat.lt_irrefl 0)⟩
    · rintro ⟨n, hn, rfl, -, -⟩
      rw [Nat.le_zero.mp hn]
      rfl
  | succ budget ih =>
    rw [spin]
    by_cases hbusy : busy (s pos)
    · rw [if_pos hbusy, ih]
      constructor
      · rintro ⟨n, hn, rfl, hall, hlast⟩
        refine ⟨n + 1, Nat.succ_le_succ hn, by omega, allFrom_succ.mpr ⟨hbusy, hall⟩, fun hlt => ?_⟩
        rw [show pos + (n + 1) = pos + 1 + n by omega]
        exact hlast (Nat.lt_of_succ_lt_succ hlt)
      · rintro ⟨n, hn, rfl, hall, hlast⟩
        cases n with
        | zero => exact absurd hbusy (hlast (Nat.succ_pos budget))
        | succ n =>
          refine ⟨n, Nat.le_of_succ_le_succ hn, by omega, (allFrom_succ.mp hall).2, fun hlt => ?_⟩
          rw [show pos + 1 + n = pos + (n + 1) by omega]
          exact hlast (Nat.succ_lt_succ hlt)
    · rw [if_neg hbusy]
      constructor
      · rintro rfl
        exact ⟨0, Nat.zero_le _, rfl, allFrom_zero, fun _ => hbusy⟩
      · rintro ⟨n, hn, rfl, hall, -⟩
        cases n with
        | zero => rfl
        | succ n => exact absurd (allFrom_succ.mp hall).1 hbusy

/-- The budget is spent exactly if all of it goes to busy values. -/
theorem spin_spent : (spin busy s pos budget).2 = 0 ↔ AllFrom busy s pos budget := by
  induction budget generalizing pos with
  | zero => exact iff_of_true rfl allFrom_zero
  | succ budget ih =>
    rw [spin, allFrom_succ]
    by_cases hbusy : busy (s pos)
    · rw [if_pos hbusy, ih]
      exact (and_iff_right hbusy).symm
    · rw [if_neg hbusy]
      exact iff_of_false (Nat.succ_ne_zero budget) fun h => hbusy h.1

/-- Each read but the last costs one unit. -/
theorem spin_reads : (spin busy s pos budget).1 + (spin busy s pos budget).2 = pos + budget + 1 := by
  induction budget generalizing pos with
  | zero => rfl
  | succ budget ih =>
    rw [spin]
    split
    · rw [ih]
      omega
    · show pos + 1 + (budget + 1) = pos + (budget + 1) + 1
      omega

end Spin

/-- From `pos` on, `k` values that are not busy come before the budget is spent on busy ones. -/
def Outlasts (busy : α → Bool) (s : Nat → α) (pos budget k : Nat) : Prop :=
  ∃ m, hits (fun a => !busy a) s pos m = k ∧ hits busy s pos m < budget

section Outlasts

variable {busy : α → Bool} {s : Nat → α} {pos budget k : Nat}

theorem outlasts_zero (h : 0 < budget) : Outlasts busy s pos budget 0 := ⟨0, rfl, h⟩

theorem outlasts_busy (hbusy : busy (s pos)) :
    Outlasts busy s pos (budget + 1) (k + 1) ↔ Outlasts busy s (pos + 1) budget (k + 1) := by
  have hno : ¬ (!busy (s pos)) = true := by simpa using hbusy
  constructor
  · rintro ⟨m, hfree, hspent⟩
    cases m with
    | zero => exact absurd hfree.symm (Nat.succ_ne_zero k)
    | succ m =>
      rw [hits, if_neg hno] at hfree
      rw [hits, if_pos hbusy] at hspent
      exact ⟨m, by omega, by omega⟩
  · rintro ⟨m, hfree, hspent⟩
    refine ⟨m + 1, ?_, ?_⟩
    · rw [hits, if_neg hno]
      omega
    · rw [hits, if_pos hbusy]
      omega

theorem outlasts_free (hfree : ¬ busy (s pos)) :
    Outlasts busy s pos budget (k + 1) ↔ Outlasts busy s (pos + 1) budget k := by
  have hyes : (!busy (s pos)) = true := by simpa using hfree
  constructor
  · rintro ⟨m, hcount, hspent⟩
    cases m with
    | zero => exact absurd hcount.symm (Nat.succ_ne_zero k)
    | succ m =>
      rw [hits, if_pos hyes] at hcount
      rw [hits, if_neg hfree] at hspent
      exact ⟨m, by omega, by omega⟩
  · rintro ⟨m, hcount, hspent⟩
    refine ⟨m + 1, ?_, ?_⟩
    · rw [hits, if_pos hyes]
      omega
    · rw [hits, if_neg hfree]
      omega

/-- A wait takes the first of these values. -/
theorem outlasts_spin : Outlasts busy s pos budget (k + 1) ↔
    (spin busy s pos budget).2 ≠ 0 ∧
      Outlasts busy s (spin busy s pos budget).1 (spin busy s pos budget).2 k := by
  induction budget generalizing pos with
  | zero =>
    refine iff_of_false ?_ fun h => h.1 rfl
    rintro ⟨m, -, hspent⟩
    exact Nat.not_lt_zero _ hspent
  | succ budget ih =>
    rw [spin]
    by_cases hbusy : busy (s pos)
    · rw [if_pos hbusy, outlasts_busy hbusy, ih]
    · rw [if_neg hbusy, outlasts_free hbusy]
      exact (and_iff_right (Nat.succ_ne_zero budget)).symm

end Outlasts

/-! ## Transfers -/

/-- `left` items to move. Gives the number of items left and the number of reads so far. -/
def pump (stop ready : α → Bool) (s : Nat → α) : Nat → Nat → Nat → Nat × Nat
  | 0, left, pos => (left, pos)
  | budget + 1, left, pos =>
    if left = 0 then (left, pos)
    else if stop (s pos) then (left, pos + 1)
    else pump stop ready s budget (if ready (s pos) then left - 1 else left) (pos + 1)

theorem pump_left_le (stop ready : α → Bool) (s : Nat → α) (budget left pos : Nat) :
    (pump stop ready s budget left pos).1 ≤ left := by
  induction budget generalizing left pos with
  | zero => exact Nat.le_refl left
  | succ budget ih =>
    rw [pump]
    split
    · exact Nat.le_refl left
    · split
      · exact Nat.le_refl left
      · refine Nat.le_trans (ih _ _) ?_
        split <;> omega

/-- The transfer gives up at `q`: the values before the first stop, within the budget, have too few
that are ready. -/
def CutAt (stop ready : α → Bool) (s : Nat → α) (budget left pos q : Nat) : Prop :=
  ∃ n ≤ budget, AllFrom (fun a => !stop a) s pos n ∧ hits ready s pos n < left ∧
    (n = budget ∧ q = pos + n ∨ n < budget ∧ stop (s (pos + n)) ∧ q = pos + n + 1)

theorem pump_cut (stop ready : α → Bool) (s : Nat → α) (budget left pos q : Nat) :
    ((pump stop ready s budget left pos).1 ≠ 0 ∧ (pump stop ready s budget left pos).2 = q) ↔
      CutAt stop ready s budget left pos q := by
  induction budget generalizing left pos with
  | zero =>
    constructor
    · rintro ⟨hleft, rfl⟩
      exact ⟨0, Nat.le_refl 0, allFrom_zero, Nat.pos_of_ne_zero hleft, .inl ⟨rfl, rfl⟩⟩
    · rintro ⟨n, hn, -, hleft, h⟩
      obtain rfl := Nat.le_zero.mp hn
      obtain ⟨-, rfl⟩ | ⟨h, -, -⟩ := h
      · exact ⟨Nat.ne_of_gt hleft, rfl⟩
      · exact absurd h (Nat.lt_irrefl 0)
  | succ budget ih =>
    rw [pump]
    by_cases hleft : left = 0
    · rw [if_pos hleft]
      refine iff_of_false (fun h => h.1 hleft) ?_
      rintro ⟨n, -, -, hlt, -⟩
      omega
    rw [if_neg hleft]
    by_cases hstop : stop (s pos)
    · rw [if_pos hstop]
      constructor
      · rintro ⟨-, rfl⟩
        exact ⟨0, Nat.zero_le _, allFrom_zero, Nat.pos_of_ne_zero hleft,
          .inr ⟨Nat.succ_pos budget, hstop, rfl⟩⟩
      · rintro ⟨n, -, hall, -, h⟩
        cases n with
        | zero =>
          obtain ⟨h, -⟩ | ⟨-, -, rfl⟩ := h
          · exact absurd h.symm (Nat.succ_ne_zero budget)
          · exact ⟨hleft, rfl⟩
        | succ n =>
          have hgo := (allFrom_succ.mp hall).1
          rw [hstop] at hgo
          cases hgo
    · rw [if_neg hstop, ih]
      have hgo : (!stop (s pos)) = true := by simpa using hstop
      have hhits : ∀ n, hits ready s pos (n + 1) < left ↔
          hits ready s (pos + 1) n < if ready (s pos) then left - 1 else left := fun n => by
        rw [hits]
        split <;> omega
      have hpos : ∀ n, pos + (n + 1) = pos + 1 + n := fun n => by omega
      constructor
      · rintro ⟨n, hn, hall, hlt, h⟩
        refine ⟨n + 1, Nat.succ_le_succ hn, allFrom_succ.mpr ⟨hgo, hall⟩, (hhits n).mpr hlt, ?_⟩
        rw [hpos]
        obtain ⟨rfl, rfl⟩ | ⟨hn, hlast, rfl⟩ := h
        · exact .inl ⟨rfl, rfl⟩
        · exact .inr ⟨Nat.succ_lt_succ hn, hlast, rfl⟩
      · rintro ⟨n, hn, hall, hlt, h⟩
        cases n with
        | zero =>
          obtain ⟨h, -⟩ | ⟨-, h, -⟩ := h
          · exact absurd h.symm (Nat.succ_ne_zero budget)
          · exact absurd h hstop
        | succ n =>
          refine ⟨n, Nat.le_of_succ_le_succ hn, (allFrom_succ.mp hall).2, (hhits n).mp hlt, ?_⟩
          rw [hpos] at h
          obtain ⟨hn, rfl⟩ | ⟨hn, hlast, rfl⟩ := h
          · exact .inl ⟨Nat.succ.inj hn, rfl⟩
          · exact .inr ⟨Nat.lt_of_succ_lt_succ hn, hlast, rfl⟩

end Rpitos
