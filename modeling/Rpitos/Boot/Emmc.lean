import Mathlib.Logic.Function.Basic
import Rpitos.Kernel.Types
import Rpitos.Boot.Crc

/-!
# Boot.Emmc

The eMMC as sectors of bytes: the layout of `emmc.h`, reads and single-sector writes, and the byte
buffers they fill. A write either takes effect or reports an error and changes nothing.
-/

namespace Rpitos

open Function StatusCode

def SECTOR_SIZE : Nat := 512
def EMMC_FW_BASE : Nat := 1064960
def EMMC_SECTOR_BOOTLOADER : Nat := EMMC_FW_BASE + 0
def EMMC_SECTOR_METADATA : Nat := EMMC_FW_BASE + 1024
def EMMC_SECTOR_APP_A : Nat := EMMC_FW_BASE + 2048
def EMMC_SECTOR_APP_B : Nat := EMMC_FW_BASE + 18432
def EMMC_FIRMWARE_FLOOR : Nat := EMMC_SECTOR_BOOTLOADER
def EMMC_SECTOR_SIZE_BOOTLOADER : Nat := 512
def EMMC_SECTOR_SIZE_APP : Nat := 16384

def APP_SLOT_A : UInt32 := 0xAAAAAAAA
def APP_SLOT_B : UInt32 := 0xBBBBBBBB

/-- Any unknown slot id resolves to slot A. -/
def APP_SLOT_TO_SECTOR (slot : UInt32) : Nat :=
  if slot = APP_SLOT_B then EMMC_SECTOR_APP_B else EMMC_SECTOR_APP_A

def APP_SLOT_OTHER (slot : UInt32) : UInt32 :=
  if slot = APP_SLOT_B then APP_SLOT_A else APP_SLOT_B

/-- A byte buffer, or what a sector holds. -/
abbrev Sector := Nat → UInt8

/-- The first 512 bytes of a buffer. -/
def clip (buf : Sector) : Sector := fun i => if i < SECTOR_SIZE then buf i else 0

/-- What each sector holds. -/
abbrev Emmc := Nat → Sector

/-- `emmc_write_blocks(sector, buf, 1)`; `fault` is the error the card reports, if any. -/
def emmc_write_blocks (E : Emmc) (sector : Nat) (buf : Sector) (fault : Option StatusCode) :
    StatusCode × Emmc :=
  if sector < EMMC_FIRMWARE_FLOOR then (E_INVALID_ARGS, E)
  else match fault with
    | none => (E_OK, update E sector (clip buf))
    | some e => (e, E)

/-- The sectors that `x` bytes fill. -/
def BYTES_TO_SECTORS (x : Nat) : Nat := u32 (x + SECTOR_SIZE - 1) / SECTOR_SIZE

/-- `emmc_read_blocks(sector, buf, count)`; `fault` is the error the card reports, if any. -/
def emmc_read_blocks (E : Emmc) (sector : Nat) (buf : Sector) (count : Nat)
    (fault : Option StatusCode) : StatusCode × Sector :=
  match fault with
  | some e => (e, buf)
  | none => (E_OK, fun i =>
      if i < SECTOR_SIZE * count then E (sector + i / SECTOR_SIZE) (i % SECTOR_SIZE) else buf i)

/-- `for (i = 0; i < n; i++) dst[off + i] = src[i]`. -/
def copy_bytes (dst : Sector) (off : Nat) (src : Sector) : Nat → Sector
  | 0 => dst
  | n + 1 => update (copy_bytes dst off src n) (off + n) (src n)

theorem copy_bytes_apply (dst : Sector) (off : Nat) (src : Sector) (n k : Nat) :
    copy_bytes dst off src n k = if off ≤ k ∧ k < off + n then src (k - off) else dst k := by
  induction n with
  | zero => rw [copy_bytes, if_neg (by omega)]
  | succ n ih =>
    unfold copy_bytes
    by_cases hk : k = off + n
    · subst hk
      rw [update_self, if_pos (by omega), Nat.add_sub_cancel_left]
    · rw [update_of_ne hk, ih]
      by_cases hin : off ≤ k ∧ k < off + n
      · rw [if_pos hin, if_pos (by omega)]
      · rw [if_neg hin, if_neg (by omega)]

/-- `*(uint32_t *)&buf[off]`. -/
def word_at (buf : Sector) (off : Nat) : UInt32 :=
  word (buf off) (buf (off + 1)) (buf (off + 2)) (buf (off + 3))

/-- The bytes of a word, lowest first. -/
def word_bytes (x : UInt32) : List UInt8 :=
  [x.toUInt8, (x >>> 8).toUInt8, (x >>> 16).toUInt8, (x >>> 24).toUInt8]

theorem word_of_bytes (x : UInt32) :
    word x.toUInt8 (x >>> 8).toUInt8 (x >>> 16).toUInt8 (x >>> 24).toUInt8 = x := by
  unfold word
  apply UInt32.eq_of_toBitVec_eq
  ext i hi
  interval_cases i <;> simp [-UInt32.toUInt32_toUInt8]

theorem word_bytes_word (a b c d : UInt8) : word_bytes (word a b c d) = [a, b, c, d] := by
  unfold word_bytes
  rw [word_byte0, word_byte1, word_byte2, word_byte3]

theorem word_at_clip (buf : Sector) {off : Nat} (h : off + 3 < SECTOR_SIZE) :
    word_at (clip buf) off = word_at buf off := by
  unfold word_at clip
  rw [if_pos h, if_pos (by omega), if_pos (by omega), if_pos (by omega)]

/-- `n` bytes of a buffer. -/
def bytes_at (buf : Sector) (off n : Nat) : List UInt8 := (List.range n).map fun i => buf (off + i)

/-- A buffer that holds these bytes, then zeros. -/
def buffer_of (data : List UInt8) : Sector := fun i => data.getD i 0

/-- The `i`-th word of a buffer that holds words. -/
theorem word_at_words (ws : List UInt32) (i : Nat) :
    word_at (buffer_of (ws.flatMap word_bytes)) (4 * i) = ws.getD i 0 := by
  induction ws generalizing i with
  | nil => simp [word_at, buffer_of, word]
  | cons w ws ih =>
    cases i with
    | zero => exact word_of_bytes w
    | succ i => exact ih i

end Rpitos
