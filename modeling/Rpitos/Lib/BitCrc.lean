import Mathlib.Data.List.Basic
import Mathlib.Logic.Function.Iterate

/-!
# Lib.BitCrc

Cyclic redundancy checks of any width, one message bit at a time: the register that shifts to the
left and the reflected one that shifts to the right.

* `reverse_crc_shift`: the reflected register is the mirror image of the other one.
* `iterate_crc_step`: an implementation that first folds a chunk of the message into the register and
  then shifts as often as the chunk has bits computes the same as the bit-by-bit one. The chunk may
  have any length up to the width.
-/

namespace Rpitos

variable {w : Nat}

/-- A message bit into a register that shifts to the left. -/
def crc_shift (poly reg : BitVec w) (bit : Bool) : BitVec w :=
  if reg.msb ^^ bit then (reg <<< 1) ^^^ poly else reg <<< 1

/-- A message bit into the reflected register. -/
def crc_shift_reflected (poly reg : BitVec w) (bit : Bool) : BitVec w :=
  if reg.getLsbD 0 ^^ bit then (reg >>> 1) ^^^ poly.reverse else reg >>> 1

/-- A step of the reflected register without a message bit. -/
def crc_step (poly reg : BitVec w) : BitVec w := crc_shift_reflected poly reg false

/-- The lowest `n` bits, lowest first. -/
def low_bits : Nat → BitVec w → List Bool
  | 0, _ => []
  | n + 1, v => v.getLsbD 0 :: low_bits n (v >>> 1)

variable {poly reg v : BitVec w} {bit : Bool} {n : Nat}

theorem reverse_shiftLeft_one (x : BitVec w) : (x <<< 1).reverse = x.reverse >>> 1 := by
  apply BitVec.eq_of_getLsbD_eq
  intro i hi
  rw [BitVec.getLsbD_reverse, BitVec.getLsbD_ushiftRight, BitVec.getLsbD_reverse,
    BitVec.getMsbD_shiftLeft, Nat.add_comm]

theorem reverse_xor (x y : BitVec w) : (x ^^^ y).reverse = x.reverse ^^^ y.reverse := by
  apply BitVec.eq_of_getLsbD_eq
  intro i hi
  simp only [BitVec.getLsbD_reverse, BitVec.getLsbD_xor, BitVec.getMsbD_xor]

theorem reverse_crc_shift (poly reg : BitVec w) (bit : Bool) :
    (crc_shift poly reg bit).reverse = crc_shift_reflected poly reg.reverse bit := by
  have hlow : reg.reverse.getLsbD 0 = reg.msb := BitVec.getLsbD_reverse
  unfold crc_shift crc_shift_reflected
  rw [hlow]
  split
  · rw [reverse_xor, reverse_shiftLeft_one]
  · exact reverse_shiftLeft_one reg

/-- Both registers over a whole message. -/
theorem reverse_foldl_crc_shift (poly : BitVec w) (bits : List Bool) (reg : BitVec w) :
    (bits.foldl (crc_shift poly) reg).reverse =
      bits.foldl (crc_shift_reflected poly) reg.reverse := by
  induction bits generalizing reg with
  | nil => rfl
  | cons bit bits ih => rw [List.foldl_cons, List.foldl_cons, ih, reverse_crc_shift]

/-- What is folded into the register moves along with it; its lowest bit is the message bit. -/
theorem crc_step_xor (poly reg v : BitVec w) :
    crc_step poly (reg ^^^ v) = crc_shift_reflected poly reg (v.getLsbD 0) ^^^ (v >>> 1) := by
  unfold crc_step crc_shift_reflected
  rw [BitVec.getLsbD_xor, Bool.xor_false, BitVec.ushiftRight_xor_distrib]
  split
  · rw [BitVec.xor_assoc, BitVec.xor_assoc, BitVec.xor_comm (v >>> 1)]
  · rfl

/-- The steps after a chunk of `n` bits has been folded in are those of its bits. -/
theorem iterate_crc_step (hv : v >>> n = 0#w) :
    (crc_step poly)^[n] (reg ^^^ v) = (low_bits n v).foldl (crc_shift_reflected poly) reg := by
  induction n generalizing reg v with
  | zero =>
    rw [BitVec.ushiftRight_zero] at hv
    rw [hv, BitVec.xor_zero]
    rfl
  | succ n ih =>
    have hv' : (v >>> 1) >>> n = 0#w := by rw [← BitVec.shiftRight_add, Nat.add_comm]; exact hv
    rw [Function.iterate_succ_apply, crc_step_xor, ih hv', low_bits, List.foldl_cons]

theorem low_bits_add (m n : Nat) (v : BitVec w) :
    low_bits (m + n) v = low_bits m v ++ low_bits n (v >>> m) := by
  induction m generalizing v with
  | zero => rw [Nat.zero_add, BitVec.ushiftRight_zero]; rfl
  | succ m ih =>
    rw [Nat.succ_add, low_bits, ih, low_bits, List.cons_append, ← BitVec.shiftRight_add, Nat.add_comm 1]

theorem low_bits_congr {w' : Nat} {v' : BitVec w'} (h : ∀ i < n, v.getLsbD i = v'.getLsbD i) :
    low_bits n v = low_bits n v' := by
  induction n generalizing v v' with
  | zero => rfl
  | succ n ih =>
    have hrest : low_bits n (v >>> 1) = low_bits n (v' >>> 1) := by
      refine ih fun i hi => ?_
      rw [BitVec.getLsbD_ushiftRight, BitVec.getLsbD_ushiftRight]
      exact h (1 + i) (by omega)
    rw [low_bits, low_bits, h 0 (Nat.succ_pos n), hrest]

end Rpitos
