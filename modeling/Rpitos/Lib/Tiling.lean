import Mathlib.Data.List.Basic

/-!
# Lib.Tiling

Parts of an interval, each given by its start and its length. `Tiles lo parts hi`: the parts lie side
by side from `lo` to `hi`, in ascending order and without gap or overlap, and none is empty.
`Tiles.points`: one after the other they go through the points of the interval.
-/

namespace Rpitos

def Tiles : Nat → List (Nat × Nat) → Nat → Prop
  | lo, [], hi => lo = hi
  | lo, part :: parts, hi => part.1 = lo ∧ 0 < part.2 ∧ Tiles (lo + part.2) parts hi

namespace Tiles

variable {lo mid hi : Nat} {parts parts' : List (Nat × Nat)}

theorem le (h : Tiles lo parts hi) : lo ≤ hi := by
  induction parts generalizing lo with
  | nil => exact Nat.le_of_eq h
  | cons part parts ih =>
    obtain ⟨-, -, hrest⟩ := h
    have := ih hrest
    omega

theorem append (h : Tiles lo parts mid) (h' : Tiles mid parts' hi) :
    Tiles lo (parts ++ parts') hi := by
  induction parts generalizing lo with
  | nil =>
    have hlo : lo = mid := h
    rwa [hlo]
  | cons part parts ih =>
    obtain ⟨hstart, hpos, hrest⟩ := h
    exact ⟨hstart, hpos, ih hrest⟩

theorem snoc (h : Tiles lo parts hi) {n : Nat} (hn : 0 < n) :
    Tiles lo (parts ++ [(hi, n)]) (hi + n) :=
  h.append ⟨rfl, hn, rfl⟩

/-- The points of the parts are those of the interval, in order. -/
theorem points (h : Tiles lo parts hi) :
    parts.flatMap (fun part => List.range' part.1 part.2) = List.range' lo (hi - lo) := by
  induction parts generalizing lo with
  | nil =>
    have hlo : lo = hi := h
    rw [hlo, Nat.sub_self]
    rfl
  | cons part parts ih =>
    obtain ⟨hstart, hpos, hrest⟩ := h
    have hle := hrest.le
    rw [List.flatMap_cons, ih hrest, hstart, show hi - lo = part.2 + (hi - (lo + part.2)) by omega,
      List.range'_append_1]

end Tiles

end Rpitos
