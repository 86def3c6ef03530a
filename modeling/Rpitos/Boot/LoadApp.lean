import Rpitos.Boot.Bootloader

/-!
# Boot.LoadApp

`boot_load_app`, and what failed reads do to it and to `boot_validate_app`. A read that fails leaves
its buffer as it is, so the validation sees the sector before in its place: `Emmc.seen`.
`failed_read`: when a failed read does not lead to a boot. `loaded_as_validated`: when the image that
was validated is the one that is loaded. Addresses are natural numbers, so the RAM has no end at which
a load would wrap.
-/

namespace Rpitos

open Function StatusCode

def APP_START_ADDR : Nat := 0x88400

/-- `emmc_read_blocks(sector, addr, count)` into the RAM; for no sectors the card is not asked. -/
def emmc_read_to (E : Emmc) (sector : Nat) (ram : Nat → UInt8) (addr count : Nat)
    (fault : Option StatusCode) : StatusCode × (Nat → UInt8) :=
  if count = 0 then (E_OK, ram)
  else
    let r := emmc_read_blocks E sector (fun i => ram (addr + i)) count fault
    (r.1, fun a => if addr ≤ a then r.2 (a - addr) else ram a)

/-- The errors of the card in `boot_load_app`: at the header, and at the image. -/
structure LoadIo where
  header : Option StatusCode
  image : Option StatusCode

/-- What `boot_load_app` has: its reads of the header and of the image, and their results. -/
structure Loaded where
  header : StatusCode
  sector_buf : Sector
  image : StatusCode
  ram : Nat → UInt8

/-- The reads of `boot_load_app`. -/
def load_reads (E : Emmc) (buf : Sector) (ram : Nat → UInt8) (app_sector : Nat) (io : LoadIo) :
    Loaded :=
  let header := emmc_read_blocks E app_sector buf 1 io.header
  let start_pkt := StartPacket.of_buffer header.2
  let sectors := BYTES_TO_SECTORS start_pkt.fw_length.toNat
  let image := emmc_read_to E (app_sector + 1) ram APP_START_ADDR sectors io.image
  ⟨header.1, header.2, image.1, image.2⟩

/-- `boot_load_app`: the result, the sector buffer and the RAM. The results of its reads are not
looked at. -/
def boot_load_app (E : Emmc) (buf : Sector) (ram : Nat → UInt8) (app_sector : Nat) (io : LoadIo) :
    StatusCode × Sector × (Nat → UInt8) :=
  let r := load_reads E buf ram app_sector io
  (E_OK, r.sector_buf, r.ram)

/-- The end of `bootloader_execute`: the result, and whether it reaches `boot_jump_to_app`. -/
def execute_tail (E : Emmc) (buf : Sector) (ram : Nat → UInt8) (app_sector : Nat) (io : LoadIo) :
    StatusCode × Bool :=
  let ret := (boot_load_app E buf ram app_sector io).1
  if ret ≠ E_OK then (ret, false) else (E_OK, true)

/-! ## Failed reads -/

/-- The sectors that the loop of `boot_validate_app` reads. -/
def loop_reads : (fuel remaining sector : Nat) → List Nat
  | 0, _, _ => []
  | fuel + 1, remaining, sector =>
    if remaining = 0 then []
    else
      let chunk := if remaining < SECTOR_SIZE then remaining else SECTOR_SIZE
      sector :: loop_reads fuel (remaining - chunk) (sector + 1)

/-- The sectors that `boot_validate_app` reads. -/
def validate_reads (read : Nat → Option Sector) (buf : Sector) (app_sector : Nat) : List Nat :=
  let start_pkt := StartPacket.of_buffer ((read app_sector).getD buf)
  app_sector ::
    if start_pkt.version_num ≠ 1 ∨ start_pkt.fw_length = 0 then []
    else loop_reads start_pkt.fw_length.toNat start_pkt.fw_length.toNat (app_sector + 1)

/-- The sector buffer behind the reads of `app_sector` to `app_sector + n`. -/
def Emmc.buffered (E : Emmc) (lost : Nat → Bool) (buf : Sector) (app_sector : Nat) : Nat → Sector
  | 0 => if lost app_sector then buf else E app_sector
  | n + 1 => if lost (app_sector + (n + 1)) then E.buffered lost buf app_sector n
    else E (app_sector + (n + 1))

/-- The card as the buffer shows it: the sector before in the place of a lost one, and at the begin
what the buffer held. -/
def Emmc.seen (E : Emmc) (lost : Nat → Bool) (buf : Sector) (app_sector : Nat) : Emmc :=
  fun sector => E.buffered lost buf app_sector (sector - app_sector)

section Seen

variable (E : Emmc) (lost : Nat → Bool) (buf₀ : Sector) (app_sector : Nat)

theorem Emmc.seen_first : ((E.reads_but lost) app_sector).getD buf₀ =
    E.seen lost buf₀ app_sector app_sector := by
  unfold Emmc.seen Emmc.reads_but
  rw [Nat.sub_self, Emmc.buffered]
  split <;> rfl

theorem Emmc.seen_next (n : Nat) : ((E.reads_but lost) (app_sector + (n + 1))).getD
      (E.seen lost buf₀ app_sector (app_sector + n)) =
    E.seen lost buf₀ app_sector (app_sector + (n + 1)) := by
  unfold Emmc.seen Emmc.reads_but
  rw [Nat.add_sub_cancel_left, Nat.add_sub_cancel_left, Emmc.buffered]
  split <;> rfl

/-- The loop cannot tell a card that loses sectors from the card that its buffer shows. -/
theorem validate_loop_seen (fuel : Nat) : ∀ (remaining n : Nat) (crc : UInt32),
    validate_loop (E.reads_but lost) fuel remaining (app_sector + (n + 1)) crc
        (E.seen lost buf₀ app_sector (app_sector + n)) =
      validate_loop (E.seen lost buf₀ app_sector).reads fuel remaining (app_sector + (n + 1)) crc
        (E.seen lost buf₀ app_sector (app_sector + n)) := by
  induction fuel with
  | zero => exact fun _ _ _ => rfl
  | succ fuel ih =>
    intro remaining n crc
    unfold validate_loop
    split
    · rfl
    · dsimp only
      rw [Emmc.seen_next]
      exact ih _ (n + 1) _

theorem boot_validate_app_seen : boot_validate_app (E.reads_but lost) buf₀ app_sector =
    boot_validate_app (E.seen lost buf₀ app_sector).reads buf₀ app_sector := by
  unfold boot_validate_app
  dsimp only
  rw [Emmc.seen_first]
  have hloop : ∀ n, validate_loop (E.reads_but lost) n n (app_sector + 1) crc32_start
        (E.seen lost buf₀ app_sector app_sector) =
      validate_loop (E.seen lost buf₀ app_sector).reads n n (app_sector + 1) crc32_start
        (E.seen lost buf₀ app_sector app_sector) :=
    fun n => validate_loop_seen E lost buf₀ app_sector n n 0 crc32_start
  rw [hloop]
  rfl

end Seen

/-- A failed read does not lead to a boot: not one of the validation to `E_OK`, and not one of the
load to `E_OK` or to the jump. -/
structure FailureStops (E : Emmc) (app_sector : Nat) (lost : Nat → Bool) (buf buf' : Sector)
    (ram : Nat → UInt8) (io : LoadIo) : Prop where
  validate : (∃ s ∈ validate_reads (E.reads_but lost) buf app_sector, lost s = true) →
    (boot_validate_app (E.reads_but lost) buf app_sector).1 ≠ E_OK
  load : (load_reads E buf' ram app_sector io).header ≠ E_OK ∨
      (load_reads E buf' ram app_sector io).image ≠ E_OK →
    (boot_load_app E buf' ram app_sector io).1 ≠ E_OK ∧
      (execute_tail E buf' ram app_sector io).2 = false

/-- For every card, slot, buffers and RAM, and all failures: they stop the boot exactly if none is in
the load, and the validation has none or sees no valid image. -/
theorem failed_read (E : Emmc) (app_sector : Nat) (lost : Nat → Bool) (buf buf' : Sector)
    (ram : Nat → UInt8) (io : LoadIo) :
    FailureStops E app_sector lost buf buf' ram io ↔
      ((∀ s ∈ validate_reads (E.reads_but lost) buf app_sector, lost s = false) ∨
        ¬(E.seen lost buf app_sector).ValidApp app_sector) ∧
      (load_reads E buf' ram app_sector io).header = E_OK ∧
      (load_reads E buf' ram app_sector io).image = E_OK := by
  have hvalid := boot_validate_app_ok (E.seen lost buf app_sector) buf app_sector
  rw [← boot_validate_app_seen] at hvalid
  constructor
  · rintro ⟨hvalidate, hload⟩
    refine ⟨?_, ?_⟩
    · by_cases hlost : ∃ s ∈ validate_reads (E.reads_but lost) buf app_sector, lost s = true
      · exact .inr fun hv => hvalidate hlost (hvalid.mpr hv)
      · refine .inl fun s hs => Bool.eq_false_iff.mpr fun h => hlost ⟨s, hs, h⟩
    · have hok : ¬((load_reads E buf' ram app_sector io).header ≠ E_OK ∨
          (load_reads E buf' ram app_sector io).image ≠ E_OK) := fun h => (hload h).1 rfl
      rw [not_or, not_not, not_not] at hok
      exact hok
  · rintro ⟨hvalidate, hheader, himage⟩
    refine ⟨fun hlost hok => ?_, fun h => ?_⟩
    · obtain ⟨s, hs, hlost⟩ := hlost
      rcases hvalidate with hnone | hv
      · rw [hnone s hs] at hlost
        cases hlost
      · exact hv (hvalid.mp hok)
    · exact (h.elim (fun h => h hheader) fun h => h himage).elim

/-- A sector buffer whose header fits the first four bytes of the buffer itself. -/
def stale_header : Sector := buffer_of ([1, 4, crc32 [1, 0, 0, 0]].flatMap word_bytes)

def card_blank : Emmc := fun _ _ => 0

/-- When no read succeeds, such a buffer is validated, and what is in the RAM is started. -/
theorem failed_read_stale :
    (boot_validate_app (card_blank.reads_but fun _ => true) stale_header EMMC_SECTOR_APP_A).1 = E_OK ∧
    (execute_tail card_blank stale_header (fun _ => 0xFF) EMMC_SECTOR_APP_A
      ⟨some E_TIMED_OUT, some E_TIMED_OUT⟩).2 = true ∧
    ¬FailureStops card_blank EMMC_SECTOR_APP_A (fun _ => true) stale_header stale_header
      (fun _ => 0xFF) ⟨some E_TIMED_OUT, some E_TIMED_OUT⟩ :=
  ⟨by decide +kernel, rfl, fun h => (h.load (.inl (by decide +kernel))).1 rfl⟩

/-! ## The image that was validated -/

/-- `n` bytes of RAM from `APP_START_ADDR` on. -/
def app_image (ram : Nat → UInt8) (n : Nat) : List UInt8 := bytes_at ram APP_START_ADDR n

/-- `fw_length`, rounded up to whole sectors. -/
def sectors_of (fw_length : UInt32) : Nat := (fw_length.toNat + SECTOR_SIZE - 1) / SECTOR_SIZE

/-- The rounding wraps for the last 511 lengths, to no sectors at all. -/
theorem BYTES_TO_SECTORS_eq (x : UInt32) : BYTES_TO_SECTORS x.toNat =
    if x.toNat ≤ 2 ^ 32 - SECTOR_SIZE then sectors_of x else 0 := by
  have hx := x.toNat_lt
  unfold BYTES_TO_SECTORS sectors_of u32 SECTOR_SIZE
  split
  · omega
  · omega

/-- What `boot_load_app` leaves: in RAM the bytes whose CRC was checked, and nothing new behind their
last sector. -/
structure LoadedAsValidated (E : Emmc) (app_sector : Nat) (fw_length : UInt32)
    (ram ram' : Nat → UInt8) : Prop where
  image : app_image ram' fw_length.toNat =
    checked_bytes E.reads fw_length.toNat fw_length.toNat (app_sector + 1) (E app_sector)
  bounded : ∀ a, APP_START_ADDR + sectors_of fw_length * SECTOR_SIZE ≤ a → ram' a = ram a

section Load

variable (E : Emmc) (buf : Sector) (ram : Nat → UInt8) (app_sector : Nat)

/-- Only the header of the slot decides how much is loaded. -/
theorem load_header : StartPacket.of_buffer (load_reads E buf ram app_sector ⟨none, none⟩).sector_buf =
    StartPacket.of_buffer (E app_sector) := by
  have hbuf : ∀ i, i < SECTOR_SIZE →
      (load_reads E buf ram app_sector ⟨none, none⟩).sector_buf i = E app_sector i := by
    intro i hi
    refine (if_pos ((Nat.mul_one SECTOR_SIZE).symm ▸ hi)).trans ?_
    rw [Nat.div_eq_of_lt hi, Nat.mod_eq_of_lt hi, Nat.add_zero]
  have hword : ∀ off, off + 3 < SECTOR_SIZE →
      word_at (load_reads E buf ram app_sector ⟨none, none⟩).sector_buf off =
        word_at (E app_sector) off := by
    intro off hoff
    unfold word_at
    rw [hbuf off (by omega), hbuf (off + 1) (by omega), hbuf (off + 2) (by omega), hbuf _ hoff]
  unfold StartPacket.of_buffer
  rw [hword _ (by decide), hword _ (by decide), hword _ (by decide)]

/-- The RAM behind `boot_load_app` on a card without errors. -/
theorem boot_load_app_ram (a : Nat) :
    (boot_load_app E buf ram app_sector ⟨none, none⟩).2.2 a =
      if APP_START_ADDR ≤ a ∧ a < APP_START_ADDR +
          BYTES_TO_SECTORS (StartPacket.of_buffer (E app_sector)).fw_length.toNat * SECTOR_SIZE then
        E (app_sector + 1 + (a - APP_START_ADDR) / SECTOR_SIZE) ((a - APP_START_ADDR) % SECTOR_SIZE)
      else ram a := by
  rw [← load_header E buf ram app_sector]
  show (emmc_read_to E (app_sector + 1) ram APP_START_ADDR (BYTES_TO_SECTORS
    (StartPacket.of_buffer (load_reads E buf ram app_sector ⟨none, none⟩).sector_buf).fw_length.toNat)
    none).2 a = _
  unfold emmc_read_to
  split
  · rename_i hnone
    rw [hnone, if_neg (by omega)]
  · dsimp only [emmc_read_blocks]
    rw [Nat.mul_comm SECTOR_SIZE]
    by_cases hlow : APP_START_ADDR ≤ a
    · rw [if_pos hlow, Nat.add_sub_cancel' hlow]
      by_cases hhigh : a - APP_START_ADDR < BYTES_TO_SECTORS (StartPacket.of_buffer
          (load_reads E buf ram app_sector ⟨none, none⟩).sector_buf).fw_length.toNat * SECTOR_SIZE
      · rw [if_pos hhigh, if_pos ⟨hlow, by omega⟩]
      · rw [if_neg hhigh, if_neg (by omega)]
    · rw [if_neg hlow, if_neg fun h => hlow h.1]

end Load

/-- For every slot, validated or not, and any length in its header: the load leaves in RAM what the
validation checks, and writes nothing behind it, exactly if rounding the length up does not pass
`2 ^ 32`, or those bytes are in RAM already. -/
theorem loaded_as_validated (E : Emmc) (buf : Sector) (ram : Nat → UInt8) (app_sector : Nat) :
    LoadedAsValidated E app_sector (StartPacket.of_buffer (E app_sector)).fw_length ram
        (boot_load_app E buf ram app_sector ⟨none, none⟩).2.2 ↔
      (StartPacket.of_buffer (E app_sector)).fw_length.toNat ≤ 2 ^ 32 - SECTOR_SIZE ∨
        app_image ram (StartPacket.of_buffer (E app_sector)).fw_length.toNat =
          E.image (app_sector + 1) (StartPacket.of_buffer (E app_sector)).fw_length.toNat := by
  have hram := boot_load_app_ram E buf ram app_sector
  generalize (boot_load_app E buf ram app_sector ⟨none, none⟩).2.2 = ram' at *
  generalize (StartPacket.of_buffer (E app_sector)).fw_length = len at *
  have hchecked := checked_bytes_image E len.toNat len.toNat (app_sector + 1) (E app_sector)
    (Nat.le_refl _)
  simp only [BYTES_TO_SECTORS_eq] at hram
  by_cases hlen : len.toNat ≤ 2 ^ 32 - SECTOR_SIZE
  · rw [if_pos hlen] at hram
    refine iff_of_true ⟨?_, fun a ha => ?_⟩ (.inl hlen)
    · rw [hchecked]
      refine List.map_congr_left fun i hi => ?_
      have hi := List.mem_range.mp hi
      have hin : APP_START_ADDR ≤ APP_START_ADDR + i ∧
          APP_START_ADDR + i < APP_START_ADDR + sectors_of len * SECTOR_SIZE := by
        unfold sectors_of SECTOR_SIZE
        omega
      rw [hram, if_pos hin, Nat.add_sub_cancel_left]
    · rw [hram, if_neg (by omega)]
  · rw [if_neg hlen] at hram
    have hsame : ram' = ram := funext fun a => (hram a).trans (if_neg (by omega))
    rw [hsame, ← hchecked]
    exact ⟨fun hl => .inr hl.image, fun hl => ⟨hl.resolve_left hlen, fun _ _ => rfl⟩⟩

/-- A slot that holds an image of zeros, with a header that fits. -/
def card_of_zeros (app_sector : Nat) (fw_length : UInt32) : Emmc := fun sector =>
  if sector = app_sector then
    buffer_of ([1, fw_length, crc32 (List.replicate fw_length.toNat 0)].flatMap word_bytes)
  else fun _ => 0

theorem card_of_zeros_header (app_sector : Nat) (fw_length : UInt32) :
    StartPacket.of_buffer (card_of_zeros app_sector fw_length app_sector) =
      ⟨1, fw_length, crc32 (List.replicate fw_length.toNat 0)⟩ := by
  unfold card_of_zeros
  rw [if_pos rfl]
  exact StartPacket.of_words ..

theorem card_of_zeros_image (app_sector : Nat) (fw_length : UInt32) (n : Nat) :
    (card_of_zeros app_sector fw_length).image (app_sector + 1) n = List.replicate n 0 := by
  refine List.eq_replicate_iff.mpr ⟨by simp [Emmc.image], fun b hb => ?_⟩
  obtain ⟨i, -, rfl⟩ := List.mem_map.mp hb
  have hne : app_sector + 1 + i / SECTOR_SIZE ≠ app_sector :=
    Nat.ne_of_gt (Nat.lt_of_lt_of_le (Nat.lt_succ_self app_sector) (Nat.le_add_right ..))
  exact congrFun (if_neg hne) _

theorem card_of_zeros_valid (app_sector : Nat) {fw_length : UInt32} (h : fw_length ≠ 0) :
    (card_of_zeros app_sector fw_length).ValidApp app_sector := by
  unfold Emmc.ValidApp
  rw [card_of_zeros_header]
  exact ⟨rfl, h, congrArg crc32 (card_of_zeros_image ..)⟩

/-- An image of `2 ^ 32 - 511` zeros is validated, but nothing is loaded. -/
theorem loaded_as_validated_wraps :
    (boot_validate_app (card_of_zeros EMMC_SECTOR_APP_A 0xFFFFFE01).reads (fun _ => 0)
      EMMC_SECTOR_APP_A).1 = E_OK ∧
    ¬LoadedAsValidated (card_of_zeros EMMC_SECTOR_APP_A 0xFFFFFE01) EMMC_SECTOR_APP_A 0xFFFFFE01
      (fun _ => 0xFF) (boot_load_app (card_of_zeros EMMC_SECTOR_APP_A 0xFFFFFE01) (fun _ => 0)
        (fun _ => 0xFF) EMMC_SECTOR_APP_A ⟨none, none⟩).2.2 := by
  have hvalid := card_of_zeros_valid EMMC_SECTOR_APP_A (show (0xFFFFFE01 : UInt32) ≠ 0 by decide)
  refine ⟨(boot_validate_app_ok _ _ _).mpr hvalid, fun hl => ?_⟩
  have hram := boot_load_app_ram (card_of_zeros EMMC_SECTOR_APP_A 0xFFFFFE01) (fun _ => 0)
    (fun _ => 0xFF) EMMC_SECTOR_APP_A (APP_START_ADDR + 0)
  have hnone : BYTES_TO_SECTORS (0xFFFFFE01 : UInt32).toNat = 0 := by decide
  rw [card_of_zeros_header, hnone, if_neg (by omega)] at hram
  have himage := hl.image
  rw [checked_bytes_image _ _ _ _ _ (Nat.le_refl _), card_of_zeros_image] at himage
  have hpos : 0 ∈ List.range (0xFFFFFE01 : UInt32).toNat := List.mem_range.mpr (by decide)
  have hmem : (0xFF : UInt8) ∈ List.replicate (0xFFFFFE01 : UInt32).toNat 0 := by
    rw [← himage]
    exact List.mem_map.mpr ⟨0, hpos, hram⟩
  exact absurd (List.eq_of_mem_replicate hmem) (by decide)

end Rpitos
