import Mathlib.Data.Fintype.EquivFin
import Rpitos.Boot.HostTool
import Rpitos.Lib.BitCrc

/-!
# Boot.CrcReference

`crc.c` against the CRC-32 as it is defined: polynomial 0x04C11DB7, the register preset to ones, each
byte of the message lowest bit first, the result mirrored and inverted.

* `crc32b_eq`, `crc32h_eq`, `crc32w_eq`: an instruction folds its bytes into the register at once.
* `crc32_agrees`: an update is the reference update bit by bit, over one piece, over two pieces or
  byte by byte, and the whole checksum is that of `zlib.crc32`.
* `crc32_word_surjective`: four bytes lead from any register to any other.
-/

namespace Rpitos

def CRC32_POLYNOMIAL : BitVec 32 := 0x04C11DB7#32

/-- The bits of a message, each byte lowest bit first. -/
def message_bits (data : List UInt8) : List Bool := data.flatMap fun b => low_bits 8 b.toBitVec

/-- The reference update of the reflected register, bit by bit. -/
def crc32_reference (crc : UInt32) (data : List UInt8) : UInt32 :=
  ⟨(message_bits data).foldl (crc_shift_reflected CRC32_POLYNOMIAL) crc.toBitVec⟩

/-- CRC-32/ISO-HDLC: the register as the polynomial division has it, mirrored at the end. -/
def crc32_iso_hdlc (data : List UInt8) : UInt32 :=
  ⟨((message_bits data).foldl (crc_shift CRC32_POLYNOMIAL) (BitVec.allOnes 32)).reverse ^^^
    BitVec.allOnes 32⟩

def crc32_update_byte (crc : UInt32) (byte : UInt8) : UInt32 := crc32_update crc [byte]

/-! ## The instructions -/

theorem message_bits_append (xs ys : List UInt8) :
    message_bits (xs ++ ys) = message_bits xs ++ message_bits ys := List.flatMap_append

theorem crc32_reference_append (crc : UInt32) (xs ys : List UInt8) :
    crc32_reference crc (xs ++ ys) = crc32_reference (crc32_reference crc xs) ys := by
  unfold crc32_reference
  rw [message_bits_append, List.foldl_append]

/-- `crc32_bit` is a step of the reflected register. -/
theorem crc32_bit_eq (crc : UInt32) :
    (crc32_bit crc).toBitVec = crc_step CRC32_POLYNOMIAL crc.toBitVec := by
  unfold crc_step crc_shift_reflected
  rw [Bool.xor_false]
  cases h : crc.toBitVec.getLsbD 0 with
  | true =>
    rw [crc32_bit_odd h, if_pos rfl, show CRC32_POLYNOMIAL.reverse = 0xEDB88320#32 by decide +kernel]
    rfl
  | false =>
    rw [crc32_bit_even h, if_neg Bool.false_ne_true]
    rfl

theorem iterate_crc32_bit (n : Nat) (crc : UInt32) :
    (crc32_bit^[n] crc).toBitVec = (crc_step CRC32_POLYNOMIAL)^[n] crc.toBitVec := by
  induction n generalizing crc with
  | zero => rfl
  | succ n ih => rw [Function.iterate_succ_apply, Function.iterate_succ_apply, ih, crc32_bit_eq]

/-- A value of `n` bits folded in at once is its bits one after the other. -/
theorem iterate_crc32_bit_xor {n : Nat} {v : UInt32} (hv : v.toBitVec >>> n = 0#32)
    (crc : UInt32) : (crc32_bit^[n] (crc ^^^ v)).toBitVec =
      (low_bits n v.toBitVec).foldl (crc_shift_reflected CRC32_POLYNOMIAL) crc.toBitVec := by
  rw [iterate_crc32_bit, UInt32.toBitVec_xor, iterate_crc_step hv]

theorem crc32b_eq (crc : UInt32) (byte : UInt8) : crc32b crc byte = crc32_reference crc [byte] := by
  have hbyte : byte.toUInt32.toBitVec >>> 8 = 0#32 := by
    apply BitVec.eq_of_getLsbD_eq
    intro i hi
    simp
  have hbits : low_bits 8 byte.toUInt32.toBitVec = message_bits [byte] := by
    refine (low_bits_congr fun i hi => ?_).trans (List.append_nil _).symm
    simp [show i < 32 by omega]
  apply UInt32.eq_of_toBitVec_eq
  show (crc32_bit^[8] (crc ^^^ byte.toUInt32)).toBitVec = _
  rw [iterate_crc32_bit_xor hbyte, hbits]
  rfl

theorem foldl_crc32b (crc : UInt32) (data : List UInt8) :
    data.foldl crc32b crc = crc32_reference crc data := by
  induction data generalizing crc with
  | nil => rfl
  | cons b data ih => rw [List.foldl_cons, ih, crc32b_eq, ← crc32_reference_append]; rfl

theorem crc32h_eq (crc : UInt32) (a b : UInt8) :
    crc32h crc (half a b) = crc32_reference crc [a, b] := by
  rw [crc32h, half_byte0, half_byte1, ← foldl_crc32b]
  rfl

theorem crc32w_eq (crc : UInt32) (a b c d : UInt8) :
    crc32w crc (word a b c d) = crc32_reference crc [a, b, c, d] := by
  rw [crc32w, word_byte0, word_byte1, word_byte2, word_byte3, ← foldl_crc32b]
  rfl

theorem message_bits_word (v : UInt32) : message_bits (word_bytes v) = low_bits 32 v.toBitVec := by
  have hbyte : ∀ (k : UInt32) (m : Nat), (v >>> k).toBitVec = v.toBitVec >>> m →
      low_bits 8 (v >>> k).toUInt8.toBitVec = low_bits 8 (v.toBitVec >>> m) := by
    intro k m hk
    refine low_bits_congr fun i hi => ?_
    rw [← hk]
    simp [hi]
  have hlow : low_bits 8 v.toUInt8.toBitVec = low_bits 8 v.toBitVec :=
    low_bits_congr fun i hi => by simp [hi]
  show low_bits 8 v.toUInt8.toBitVec ++ (low_bits 8 (v >>> 8).toUInt8.toBitVec ++
    (low_bits 8 (v >>> 16).toUInt8.toBitVec ++
      (low_bits 8 (v >>> 24).toUInt8.toBitVec ++ []))) = low_bits (8 + (8 + (8 + 8))) v.toBitVec
  rw [low_bits_add, low_bits_add, low_bits_add, hlow, hbyte 8 8 (by simp), hbyte 16 16 (by simp),
    hbyte 24 24 (by simp), List.append_nil, ← BitVec.shiftRight_add, ← BitVec.shiftRight_add]

/-- `crc32w` as 32 steps behind one exclusive or. -/
theorem crc32_word_iterate (crc v : UInt32) :
    crc32_reference crc (word_bytes v) = crc32_bit^[32] (crc ^^^ v) := by
  apply UInt32.eq_of_toBitVec_eq
  have hv : v.toBitVec >>> 32 = 0#32 := by
    apply BitVec.eq_of_getLsbD_eq
    intro i hi
    simp
  rw [iterate_crc32_bit_xor hv, ← message_bits_word]
  rfl

instance finite_uint32 : Finite UInt32 := Finite.of_injective UInt32.toFin fun _ _ h => UInt32.toFin_inj.mp h

theorem crc32_bit_surjective : Function.Surjective crc32_bit :=
  Finite.injective_iff_surjective.mp fun _ _ => crc32_bit_injective

/-- Four bytes lead from any register to any other. -/
theorem crc32_word_surjective (crc crc' : UInt32) :
    ∃ v, crc32_reference crc (word_bytes v) = crc' := by
  obtain ⟨u, hu⟩ := crc32_bit_surjective.iterate 32 crc'
  refine ⟨crc ^^^ u, ?_⟩
  rw [crc32_word_iterate, ← UInt32.xor_assoc, UInt32.xor_self, UInt32.zero_xor, hu]

/-! ## The functions -/

/-- Words, then a half, then a byte: in whatever way the bytes are taken, these are their bits. -/
theorem crc32_update_reference (crc : UInt32) (data : List UInt8) :
    crc32_update crc data = crc32_reference crc data := by
  induction crc, data using crc32_update.induct with
  | case1 crc a b c d data ih =>
    rw [crc32_update, ih, crc32w_eq, ← crc32_reference_append]
    rfl
  | case2 crc a b c =>
    rw [crc32_update, crc32h_eq, crc32b_eq, ← crc32_reference_append]
    rfl
  | case3 crc a b => rw [crc32_update, crc32h_eq]
  | case4 crc a => rw [crc32_update, crc32b_eq]
  | case5 crc => rfl

theorem foldl_crc32_update_byte (crc : UInt32) (data : List UInt8) :
    data.foldl crc32_update_byte crc = crc32_reference crc data := by
  induction data generalizing crc with
  | nil => rfl
  | cons b data ih =>
    rw [List.foldl_cons, ih, crc32_update_byte, crc32_update_reference, ← crc32_reference_append]
    rfl

/-- `zlib.crc32` is the checksum that the polynomial division defines. -/
theorem zlib_crc32_iso_hdlc (data : List UInt8) : zlib_crc32 data = crc32_iso_hdlc data := by
  have hones : (BitVec.allOnes 32).reverse = BitVec.allOnes 32 := by decide +kernel
  unfold zlib_crc32 crc32_iso_hdlc
  rw [foldl_crc32b, reverse_foldl_crc_shift, hones]
  rfl

/-- An update is the reference update bit by bit; it may be split anywhere, down to single bytes; and
the whole checksum is the one that the tools on the host compute. -/
theorem crc32_agrees (c : UInt32) (a b : List UInt8) :
    crc32_update c a = crc32_reference c a ∧
      crc32_update (crc32_update c a) b = crc32_update c (a ++ b) ∧
      a.foldl crc32_update_byte c = crc32_update c a ∧
      crc32_finish (crc32_update crc32_start a) = zlib_crc32 a ∧
      zlib_crc32 a = crc32_iso_hdlc a := by
  refine ⟨crc32_update_reference c a, ?_, ?_, ?_, zlib_crc32_iso_hdlc a⟩
  · rw [crc32_update_reference, crc32_update_reference, crc32_update_reference,
      crc32_reference_append]
  · rw [foldl_crc32_update_byte, crc32_update_reference]
  · exact (zlib_crc32_eq a).symm

/-- The check value of CRC-32/ISO-HDLC. -/
example : crc32_iso_hdlc "123456789".toUTF8.toList = 0xCBF43926 := by decide +kernel

end Rpitos
