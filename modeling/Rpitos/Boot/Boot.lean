import Rpitos.Boot.Watchdog

/-!
# Boot.Boot

`boot.c` and `boot_flags.c`: the validation of an app slot, and the flags in the RAM that the
bootloader and the app share. `boot_validate_app_ok`: when every read succeeds, a slot is accepted
exactly if its header and the CRC of its image are right.
-/

namespace Rpitos

open Function StatusCode

/-- The header sector of a slot, as far as it is read. -/
structure StartPacket where
  version_num : UInt32
  fw_length : UInt32
  crc : UInt32
  deriving DecidableEq, Repr

/-- `(const StartPacket *)buf`. -/
def StartPacket.of_buffer (buf : Sector) : StartPacket where
  version_num := word_at buf (4 * 0)
  fw_length := word_at buf (4 * 1)
  crc := word_at buf (4 * 2)

/-- The header that is made of these words. -/
theorem StartPacket.of_words (version_num fw_length crc : UInt32) :
    StartPacket.of_buffer (buffer_of ([version_num, fw_length, crc].flatMap word_bytes)) =
      ⟨version_num, fw_length, crc⟩ := by
  unfold StartPacket.of_buffer
  rw [word_at_words, word_at_words, word_at_words]
  rfl

/-- `sizeof(StartPacket)`. -/
def START_PACKET_SIZE : Nat := 12

/-- A card whose reads all succeed. -/
def Emmc.reads (E : Emmc) : Nat → Option Sector := fun sector => some (E sector)

/-- The loop of `boot_validate_app`: the CRC and the sector buffer. A read that fails leaves the
buffer as it is. -/
def validate_loop (read : Nat → Option Sector) :
    (fuel remaining sector : Nat) → UInt32 → Sector → UInt32 × Sector
  | 0, _, _, crc, buf => (crc, buf)
  | fuel + 1, remaining, sector, crc, buf =>
    if remaining = 0 then (crc, buf)
    else
      let buf := (read sector).getD buf
      let chunk := if remaining < SECTOR_SIZE then remaining else SECTOR_SIZE
      validate_loop read fuel (remaining - chunk) (sector + 1)
        (crc32_update crc (bytes_at buf 0 chunk)) buf

/-- `boot_validate_app`: the result and the sector buffer. -/
def boot_validate_app (read : Nat → Option Sector) (buf : Sector) (app_sector : Nat) :
    StatusCode × Sector :=
  let buf := (read app_sector).getD buf
  let start_pkt := StartPacket.of_buffer buf
  if start_pkt.version_num ≠ 1 ∨ start_pkt.fw_length = 0 then (E_CORRUPTED, buf)
  else
    let r := validate_loop read start_pkt.fw_length.toNat start_pkt.fw_length.toNat
      (app_sector + 1) crc32_start buf
    (if crc32_finish r.1 = start_pkt.crc then E_OK else E_CORRUPTED, r.2)

/-- The first `n` bytes on the card from a sector on. -/
def Emmc.image (E : Emmc) (sector n : Nat) : List UInt8 :=
  (List.range n).map fun i => E (sector + i / SECTOR_SIZE) (i % SECTOR_SIZE)

/-- What `boot_validate_app` looks for. -/
def Emmc.ValidApp (E : Emmc) (app_sector : Nat) : Prop :=
  let start_pkt := StartPacket.of_buffer (E app_sector)
  start_pkt.version_num = 1 ∧ start_pkt.fw_length ≠ 0 ∧
    crc32 (E.image (app_sector + 1) start_pkt.fw_length.toNat) = start_pkt.crc

instance (E : Emmc) (app_sector : Nat) : Decidable (E.ValidApp app_sector) :=
  inferInstanceAs (Decidable (_ ∧ _ ∧ _))

theorem Emmc.image_le {E : Emmc} {sector n : Nat} (h : n ≤ SECTOR_SIZE) :
    E.image sector n = bytes_at (E sector) 0 n := by
  unfold Emmc.image bytes_at
  refine List.map_congr_left fun i hi => ?_
  have hi : i < SECTOR_SIZE := Nat.lt_of_lt_of_le (List.mem_range.mp hi) h
  rw [Nat.div_eq_of_lt hi, Nat.mod_eq_of_lt hi, Nat.zero_add, Nat.add_zero]

/-- The first sector of an image, then the rest. -/
theorem Emmc.image_succ (E : Emmc) (sector n : Nat) : E.image sector (SECTOR_SIZE + n) =
    bytes_at (E sector) 0 SECTOR_SIZE ++ E.image (sector + 1) n := by
  have hpos : 0 < SECTOR_SIZE := by decide
  have hfirst : E.image sector SECTOR_SIZE = bytes_at (E sector) 0 SECTOR_SIZE :=
    Emmc.image_le (Nat.le_refl SECTOR_SIZE)
  have hrest : ((fun i => E (sector + i / SECTOR_SIZE) (i % SECTOR_SIZE)) ∘ fun i =>
      SECTOR_SIZE + i) = fun i => E (sector + 1 + i / SECTOR_SIZE) (i % SECTOR_SIZE) := by
    funext i
    rw [Function.comp, Nat.add_div_left _ hpos, Nat.add_mod_left,
      Nat.add_comm _ 1, Nat.add_assoc]
  rw [← hfirst]
  unfold Emmc.image
  rw [List.range_add, List.map_append, List.map_map, hrest]

/-- The bytes that the loop of `boot_validate_app` folds into the CRC. -/
def checked_bytes (read : Nat → Option Sector) :
    (fuel remaining sector : Nat) → Sector → List UInt8
  | 0, _, _, _ => []
  | fuel + 1, remaining, sector, buf =>
    if remaining = 0 then []
    else
      let buf := (read sector).getD buf
      let chunk := if remaining < SECTOR_SIZE then remaining else SECTOR_SIZE
      bytes_at buf 0 chunk ++ checked_bytes read fuel (remaining - chunk) (sector + 1) buf

theorem validate_loop_checked (read : Nat → Option Sector) (fuel : Nat) : ∀ (remaining sector : Nat)
    (crc : UInt32) (buf : Sector), (validate_loop read fuel remaining sector crc buf).1 =
      crc32_update crc (checked_bytes read fuel remaining sector buf) := by
  induction fuel with
  | zero => exact fun _ _ _ _ => rfl
  | succ fuel ih =>
    intro remaining sector crc buf
    unfold validate_loop checked_bytes
    split
    · rfl
    · dsimp only
      rw [ih, crc32_update_append]

/-- With reads that succeed, they are the image. -/
theorem checked_bytes_image (E : Emmc) (fuel : Nat) : ∀ (remaining sector : Nat) (buf : Sector),
    remaining ≤ fuel → checked_bytes E.reads fuel remaining sector buf = E.image sector remaining := by
  induction fuel with
  | zero =>
    intro remaining sector buf h
    rw [Nat.le_zero.mp h]
    rfl
  | succ fuel ih =>
    intro remaining sector buf h
    have hpos : 0 < SECTOR_SIZE := by decide
    unfold checked_bytes
    by_cases hzero : remaining = 0
    · rw [if_pos hzero, hzero]
      rfl
    · rw [if_neg hzero]
      dsimp only [Emmc.reads, Option.getD_some]
      by_cases hlt : remaining < SECTOR_SIZE
      · rw [if_pos hlt, Nat.sub_self]
        refine (congrArg (bytes_at (E sector) 0 remaining ++ ·) (ih 0 _ _ (Nat.zero_le _))).trans ?_
        rw [Emmc.image_le (Nat.le_of_lt hlt)]
        exact List.append_nil _
      · obtain ⟨n, rfl⟩ := Nat.exists_eq_add_of_le (Nat.le_of_not_lt hlt)
        rw [if_neg hlt, Nat.add_sub_cancel_left, E.image_succ]
        exact congrArg _ (ih n _ _ (by omega))

/-- The loop folds the image into the CRC. -/
theorem validate_loop_crc (E : Emmc) (fuel remaining sector : Nat) (crc : UInt32) (buf : Sector)
    (h : remaining ≤ fuel) : (validate_loop E.reads fuel remaining sector crc buf).1 =
      crc32_update crc (E.image sector remaining) := by
  rw [validate_loop_checked, checked_bytes_image E fuel remaining sector buf h]

/-- With reads that succeed, exactly the valid slots are accepted. -/
theorem boot_validate_app_ok (E : Emmc) (buf : Sector) (app_sector : Nat) :
    (boot_validate_app E.reads buf app_sector).1 = E_OK ↔ E.ValidApp app_sector := by
  unfold boot_validate_app Emmc.ValidApp
  dsimp only [Emmc.reads, Option.getD_some]
  split
  · rename_i h
    refine iff_of_false StatusCode.noConfusion fun hv => ?_
    exact h.elim (fun h => h hv.1) fun h => hv.2.1 h
  · rename_i h
    rw [not_or, not_not] at h
    have hloop := validate_loop_crc E _ _ (app_sector + 1) crc32_start (E app_sector)
      (Nat.le_refl (StartPacket.of_buffer (E app_sector)).fw_length.toNat)
    rw [hloop]
    dsimp only
    unfold crc32
    split
    · rename_i hcrc
      exact iff_of_true rfl ⟨h.1, h.2, hcrc⟩
    · rename_i hcrc
      exact iff_of_false StatusCode.noConfusion fun hv => hcrc hv.2.2

def BOOT_FLAGS_MAGIC : UInt32 := 0xB007F1A6
def DFU_REQUEST : UInt32 := 0xB007AB1E
def RESET_REASON_COLD : UInt32 := 0
def RESET_REASON_SOFTWARE : UInt32 := 2

structure BootFlags where
  magic : UInt32
  reset_reason : UInt32
  dfu_requested : UInt32
  fw_crc_ok : UInt32
  deriving DecidableEq, Repr

def boot_flags_valid (flags : BootFlags) : Bool := flags.magic = BOOT_FLAGS_MAGIC

def boot_flags_init (flags : BootFlags) : BootFlags :=
  if boot_flags_valid flags then flags
  else { reset_reason := RESET_REASON_COLD, dfu_requested := 0, fw_crc_ok := 0,
         magic := BOOT_FLAGS_MAGIC }

end Rpitos
