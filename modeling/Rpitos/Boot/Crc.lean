import Mathlib.Data.List.Basic
import Mathlib.Tactic.IntervalCases

/-!
# Boot.Crc

`crc.c`. The instructions `crc32b`, `crc32h` and `crc32w` fold one, two or four little-endian bytes
into a CRC-32 (reflected polynomial 0x04C11DB7). `crc32_update_eq`: an update is the fold of
`crc32b` over the bytes, so it may be split anywhere.
-/

namespace Rpitos

/-- One step of the reflected division. -/
def crc32_bit (crc : UInt32) : UInt32 :=
  if crc &&& 1 = 1 then (crc >>> 1) ^^^ 0xEDB88320 else crc >>> 1

def crc32b (crc : UInt32) (byte : UInt8) : UInt32 :=
  crc32_bit (crc32_bit (crc32_bit (crc32_bit (crc32_bit (crc32_bit (crc32_bit (crc32_bit
    (crc ^^^ byte.toUInt32))))))))

def crc32h (crc val : UInt32) : UInt32 :=
  crc32b (crc32b crc val.toUInt8) (val >>> 8).toUInt8

def crc32w (crc val : UInt32) : UInt32 :=
  crc32b (crc32b (crc32b (crc32b crc val.toUInt8) (val >>> 8).toUInt8) (val >>> 16).toUInt8)
    (val >>> 24).toUInt8

/-- `data[0] | data[1] << 8`. -/
def half (a b : UInt8) : UInt32 := a.toUInt32 ||| (b.toUInt32 <<< 8)

/-- A little-endian word. -/
def word (a b c d : UInt8) : UInt32 :=
  a.toUInt32 ||| (b.toUInt32 <<< 8) ||| (c.toUInt32 <<< 16) ||| (d.toUInt32 <<< 24)

def crc32_start : UInt32 := 0xFFFFFFFF

/-- `crc32_hw_update`: words first, then what is left. -/
def crc32_update (crc : UInt32) : List UInt8 → UInt32
  | a :: b :: c :: d :: data => crc32_update (crc32w crc (word a b c d)) data
  | [a, b, c] => crc32b (crc32h crc (half a b)) c
  | [a, b] => crc32h crc (half a b)
  | [a] => crc32b crc a
  | [] => crc

def crc32_finish (crc : UInt32) : UInt32 := crc ^^^ 0xFFFFFFFF

section Bytes

variable (a b c d : UInt8)

theorem half_byte0 : (half a b).toUInt8 = a := by
  unfold half
  apply UInt8.eq_of_toBitVec_eq
  ext i hi
  simp

theorem half_byte1 : (half a b >>> 8).toUInt8 = b := by
  unfold half
  apply UInt8.eq_of_toBitVec_eq
  ext i hi
  interval_cases i <;> simp

theorem word_byte0 : (word a b c d).toUInt8 = a := by
  unfold word
  apply UInt8.eq_of_toBitVec_eq
  ext i hi
  simp

theorem word_byte1 : (word a b c d >>> 8).toUInt8 = b := by
  unfold word
  apply UInt8.eq_of_toBitVec_eq
  ext i hi
  interval_cases i <;> simp

theorem word_byte2 : (word a b c d >>> 16).toUInt8 = c := by
  unfold word
  apply UInt8.eq_of_toBitVec_eq
  ext i hi
  interval_cases i <;> simp

theorem word_byte3 : (word a b c d >>> 24).toUInt8 = d := by
  unfold word
  apply UInt8.eq_of_toBitVec_eq
  ext i hi
  interval_cases i <;> simp

end Bytes

theorem crc32_update_eq (crc : UInt32) (data : List UInt8) :
    crc32_update crc data = data.foldl crc32b crc := by
  induction crc, data using crc32_update.induct with
  | case1 crc a b c d data ih =>
    unfold crc32_update
    rw [ih, crc32w, word_byte0, word_byte1, word_byte2, word_byte3]
    rfl
  | case2 crc a b c =>
    rw [crc32_update, crc32h, half_byte0, half_byte1]
    rfl
  | case3 crc a b =>
    rw [crc32_update, crc32h, half_byte0, half_byte1]
    rfl
  | case4 crc a => rfl
  | case5 crc => rfl

theorem crc32_update_append (crc : UInt32) (xs ys : List UInt8) :
    crc32_update (crc32_update crc xs) ys = crc32_update crc (xs ++ ys) := by
  simp only [crc32_update_eq, List.foldl_append]

theorem crc32_bit_odd {a : UInt32} (h : a.toBitVec.getLsbD 0 = true) :
    crc32_bit a = (a >>> 1) ^^^ 0xEDB88320 := by
  refine if_pos ?_
  apply UInt32.eq_of_toBitVec_eq
  ext i hi
  rcases Nat.eq_zero_or_pos i with rfl | hpos
  · simpa using h
  · simp
    omega

theorem crc32_bit_even {a : UInt32} (h : a.toBitVec.getLsbD 0 = false) : crc32_bit a = a >>> 1 := by
  refine if_neg fun hone => ?_
  have hbit := congrArg (fun x : UInt32 => x.toBitVec.getLsbD 0) hone
  rw [show (a &&& 1 : UInt32).toBitVec.getLsbD 0 = a.toBitVec.getLsbD 0 by simp, h] at hbit
  exact absurd hbit (by decide)

/-- The top bit tells which branch was taken, so a step can be undone. -/
theorem crc32_bit_injective {a b : UInt32} (h : crc32_bit a = crc32_bit b) : a = b := by
  have htop : ∀ a, (crc32_bit a).toBitVec.getLsbD 31 = a.toBitVec.getLsbD 0 := by
    intro a
    cases h : a.toBitVec.getLsbD 0 with
    | true => rw [crc32_bit_odd h]; simp
    | false => rw [crc32_bit_even h]; simp
  have hlow : a.toBitVec.getLsbD 0 = b.toBitVec.getLsbD 0 := by rw [← htop, ← htop, h]
  have hshift : a >>> 1 = b >>> 1 := by
    cases hb : b.toBitVec.getLsbD 0 with
    | true =>
      rw [crc32_bit_odd (hlow.trans hb), crc32_bit_odd hb] at h
      exact (UInt32.xor_left_inj _).mp h
    | false =>
      rw [crc32_bit_even (hlow.trans hb), crc32_bit_even hb] at h
      exact h
  apply UInt32.eq_of_toBitVec_eq
  apply BitVec.eq_of_getLsbD_eq
  intro i hi
  rcases Nat.eq_zero_or_pos i with rfl | hpos
  · exact hlow
  · have hbit := congrArg (fun x : UInt32 => x.toBitVec.getLsbD (i - 1)) hshift
    simpa [Nat.add_sub_cancel' hpos] using hbit

/-- The eight steps behind the exclusive or can be undone. -/
theorem crc32b_xor {crc crc' : UInt32} {a b : UInt8} (h : crc32b crc a = crc32b crc' b) :
    crc ^^^ a.toUInt32 = crc' ^^^ b.toUInt32 :=
  crc32_bit_injective (crc32_bit_injective (crc32_bit_injective (crc32_bit_injective
    (crc32_bit_injective (crc32_bit_injective (crc32_bit_injective (crc32_bit_injective h)))))))

theorem crc32b_injective {crc : UInt32} {a b : UInt8} (h : crc32b crc a = crc32b crc b) : a = b :=
  UInt8.toUInt32_inj.mp ((UInt32.xor_right_inj _).mp (crc32b_xor h))

theorem foldl_crc32b_injective (data : List UInt8) : ∀ {crc crc' : UInt32},
    data.foldl crc32b crc = data.foldl crc32b crc' → crc = crc' := by
  induction data with
  | nil => exact id
  | cons b data ih => exact fun h => (UInt32.xor_left_inj _).mp (crc32b_xor (ih h))

/-- The CRC of a byte string. -/
def crc32 (data : List UInt8) : UInt32 := crc32_finish (crc32_update crc32_start data)

/-- A byte that changes changes the CRC. -/
theorem crc32_set {data : List UInt8} {i : Nat} (hi : i < data.length) {b : UInt8}
    (hb : b ≠ data[i]) : crc32 (data.set i b) ≠ crc32 data := by
  intro h
  unfold crc32 crc32_finish at h
  have hfold := (UInt32.xor_left_inj _).mp h
  have hsplit : data = data.take i ++ data[i] :: data.drop (i + 1) := by
    rw [List.getElem_cons_drop, List.take_append_drop]
  rw [List.set_eq_take_append_cons_drop, if_pos hi, crc32_update_eq, crc32_update_eq] at hfold
  conv at hfold => rhs; rw [hsplit]
  rw [List.foldl_append, List.foldl_append, List.foldl_cons, List.foldl_cons] at hfold
  exact hb (crc32b_injective (foldl_crc32b_injective _ hfold))

end Rpitos
