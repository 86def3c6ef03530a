import Mathlib.Algebra.Group.Nat.Defs
import Mathlib.Logic.Function.Basic

/-!
# Lib.WordMem

A memory of 32-bit words by their byte addresses, for code whose accesses are all aligned.
`StoredWords`: words lie from an address on, and nothing else has changed; so it is after storing
them upwards (`store_words_stored`), one below the other (`StoredWords.push`), or as two blocks
(`StoredWords.append`).
-/

namespace Rpitos

open Function (update update_self update_of_ne)

abbrev WordMem := UInt32 → UInt32

/-- The address of the `i`-th word from `a` on. -/
def cell (a : UInt32) (i : Nat) : UInt32 := a + UInt32.ofNat (4 * i)

/-- These words lie from `a` on. -/
def HoldsWords (mem : WordMem) (a : UInt32) (ws : List UInt32) : Prop :=
  ∀ i (h : i < ws.length), mem (cell a i) = ws[i]

def store_words (mem : WordMem) (a : UInt32) : List UInt32 → WordMem
  | [] => mem
  | w :: ws => store_words (update mem a w) (a + 4) ws

variable {mem mem' : WordMem} {a : UInt32} {i j : Nat} {ws xs ys : List UInt32}

@[simp] theorem cell_zero (a : UInt32) : cell a 0 = a := UInt32.add_zero a

theorem cell_add (a : UInt32) (i j : Nat) : cell (cell a i) j = cell a (i + j) := by
  unfold cell
  rw [UInt32.add_assoc, ← UInt32.ofNat_add, Nat.mul_add]

theorem cell_succ (a : UInt32) (i : Nat) : cell (a + 4) i = cell a (i + 1) := by
  rw [Nat.add_comm, ← cell_add]
  rfl

theorem cell_injective (hi : i < 2 ^ 30) (hj : j < 2 ^ 30) (h : cell a i = cell a j) : i = j := by
  have hoff := congrArg UInt32.toNat ((UInt32.add_right_inj a).mp h)
  rw [UInt32.toNat_ofNat', UInt32.toNat_ofNat'] at hoff
  omega

/-- `mem'` holds these words from `a` on and is otherwise like `mem`. -/
structure StoredWords (mem mem' : WordMem) (a : UInt32) (ws : List UInt32) : Prop where
  holds : HoldsWords mem' a ws
  other : ∀ x, (∀ i, i < ws.length → x ≠ cell a i) → mem' x = mem x

theorem StoredWords.nil (mem : WordMem) (a : UInt32) : StoredWords mem mem a [] :=
  ⟨fun i h => absurd h (Nat.not_lt_zero i), fun _ _ => rfl⟩

/-- The last word has been stored first. -/
theorem StoredWords.push (h : StoredWords mem mem' (cell a 1) ws) (hlen : ws.length < 2 ^ 30)
    (w : UInt32) : StoredWords mem (update mem' a w) a (w :: ws) := by
  refine ⟨fun i hi => ?_, fun x hx => ?_⟩
  · rw [List.length_cons] at hi
    cases i with
    | zero =>
      rw [cell_zero, update_self]
      rfl
    | succ i =>
      have hne : cell a (i + 1) ≠ a := by
        intro heq
        have := cell_injective (by omega) (by omega) (heq.trans (cell_zero a).symm)
        omega
      have hcell : cell (cell a 1) i = cell a (i + 1) := by rw [cell_add, Nat.add_comm]
      rw [update_of_ne hne, ← hcell]
      exact h.holds i (Nat.lt_of_succ_lt_succ hi)
  · have ha : x ≠ a := by simpa using hx 0 (Nat.succ_pos _)
    rw [update_of_ne ha]
    refine h.other x fun i hi => ?_
    rw [cell_add, Nat.add_comm]
    exact hx (i + 1) (Nat.succ_lt_succ hi)

theorem store_words_other (mem : WordMem) {a x : UInt32} {ws : List UInt32}
    (h : ∀ i, i < ws.length → x ≠ cell a i) : store_words mem a ws x = mem x := by
  induction ws generalizing mem a with
  | nil => rfl
  | cons w ws ih =>
    have ha : x ≠ a := by simpa using h 0 (Nat.succ_pos _)
    rw [store_words, ih _ fun i hi => ?_, update_of_ne ha]
    rw [cell_succ]
    exact h (i + 1) (Nat.succ_lt_succ hi)

theorem store_words_holds (mem : WordMem) (a : UInt32) (ws : List UInt32)
    (hlen : ws.length ≤ 2 ^ 30) : HoldsWords (store_words mem a ws) a ws := by
  induction ws generalizing mem a with
  | nil => exact fun i h => absurd h (Nat.not_lt_zero i)
  | cons w ws ih =>
    rw [List.length_cons] at hlen
    intro i hi
    cases i with
    | zero =>
      rw [store_words, cell_zero, store_words_other _ fun i hi heq => ?_, update_self]
      · rfl
      · rw [cell_succ] at heq
        have := cell_injective (by omega) (by omega) ((cell_zero a).trans heq)
        omega
    | succ i =>
      rw [store_words, ← cell_succ]
      exact ih _ _ (by omega) i (Nat.lt_of_succ_lt_succ hi)

theorem store_words_stored (mem : WordMem) (a : UInt32) (ws : List UInt32)
    (hlen : ws.length ≤ 2 ^ 30) : StoredWords mem (store_words mem a ws) a ws :=
  ⟨store_words_holds mem a ws hlen, fun _ => store_words_other mem⟩

/-- Words below those that have been stored before. -/
theorem StoredWords.append {mem₁ : WordMem} (hy : StoredWords mem mem₁ (cell a xs.length) ys)
    (hx : StoredWords mem₁ mem' a xs) (hlen : xs.length + ys.length ≤ 2 ^ 30) :
    StoredWords mem mem' a (xs ++ ys) := by
  refine ⟨fun i hi => ?_, fun x hx' => ?_⟩
  · rw [List.length_append] at hi
    by_cases hlt : i < xs.length
    · rw [List.getElem_append_left hlt]
      exact hx.holds i hlt
    · have hle := Nat.le_of_not_lt hlt
      have hcell := hy.holds (i - xs.length) (by omega)
      rw [cell_add, Nat.add_sub_cancel' hle] at hcell
      rw [List.getElem_append_right hle, ← hcell]
      refine hx.other _ fun j hj heq => ?_
      have := cell_injective (by omega) (by omega) heq
      omega
  · rw [List.length_append] at hx'
    rw [hx.other x fun i hi => hx' i (by omega)]
    refine hy.other x fun i hi => ?_
    rw [cell_add]
    exact hx' _ (by omega)

theorem HoldsWords.congr (h : HoldsWords mem a ws)
    (hmem : ∀ i, i < ws.length → mem' (cell a i) = mem (cell a i)) : HoldsWords mem' a ws :=
  fun i hi => (hmem i hi).trans (h i hi)

end Rpitos
