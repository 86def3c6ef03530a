import Mathlib.Data.List.Basic
import Mathlib.Data.Nat.ModEq

/-!
# Lib.Ring

A ring of `cap` slots, as its history: the values `written`, of which the first `n` have been read.
`Ring cap slot written n` says that the slots hold the values that have been written and not read.
-/

namespace Rpitos

variable {α : Type}

structure Ring (cap : Nat) (slot : Nat → α) (written : List α) (n : Nat) : Prop where
  le : n ≤ written.length
  room : written.length ≤ n + cap
  slots : ∀ i (h : i < written.length), n ≤ i → slot (i % cap) = written[i]

namespace Ring

variable {cap n i j : Nat} {slot slot' : Nat → α} {written : List α} {x : α}

/-- Two positions less than a turn apart are in different slots. -/
theorem mod_ne (hij : i < j) (hj : j < i + cap) : i % cap ≠ j % cap := by
  intro h
  have hd : cap ∣ j - i := (Nat.modEq_iff_dvd' (Nat.le_of_lt hij)).mp h
  have := Nat.le_of_dvd (by omega) hd
  omega

theorem empty (slot : Nat → α) : Ring cap slot [] 0 :=
  ⟨Nat.le_refl _, Nat.zero_le _, fun i h => by cases h⟩

theorem congr (hr : Ring cap slot written n) (hcap : 0 < cap)
    (h : ∀ k, k < cap → slot' k = slot k) : Ring cap slot' written n :=
  ⟨hr.le, hr.room, fun i hi hn => by rw [h _ (Nat.mod_lt i hcap)]; exact hr.slots i hi hn⟩

/-- Writing the next slot of a ring with room. -/
theorem push (hr : Ring cap slot written n) (hroom : written.length < n + cap)
    (hnew : slot' (written.length % cap) = x)
    (hold : ∀ k, k < cap → k ≠ written.length % cap → slot' k = slot k) :
    Ring cap slot' (written ++ [x]) n := by
  have hle := hr.le
  have hcap : 0 < cap := by omega
  refine ⟨by simp; omega, by simp; omega, fun i hi hn => ?_⟩
  by_cases hlast : i = written.length
  · subst hlast; rw [hnew]; simp
  · have hlt : i < written.length := by simp at hi; omega
    have hne : i % cap ≠ written.length % cap := mod_ne hlt (by omega)
    rw [hold _ (Nat.mod_lt i hcap) hne, hr.slots i hlt hn, List.getElem_append_left hlt]

/-- The next value to read is in its slot. -/
theorem front (hr : Ring cap slot written n) (h : n < written.length) :
    slot (n % cap) = written[n] := hr.slots n h (Nat.le_refl n)

theorem pop (hr : Ring cap slot written n) (h : n < written.length) :
    Ring cap slot written (n + 1) :=
  ⟨h, by have := hr.room; omega, fun i hi hn => hr.slots i hi (by omega)⟩

/-- The slots from the next one to read on, as many as are occupied: what has not been read. -/
theorem unread (hr : Ring cap slot written n) :
    (List.range (written.length - n)).map (fun i => slot ((n + i) % cap)) = written.drop n := by
  refine List.ext_getElem (by simp) fun i hi _ => ?_
  have hlt : n + i < written.length := by
    rw [List.length_map, List.length_range] at hi
    omega
  rw [List.getElem_map, List.getElem_range, List.getElem_drop, hr.slots _ hlt (by omega)]

end Ring
end Rpitos
