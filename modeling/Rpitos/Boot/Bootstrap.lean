import Rpitos.Boot.CrcReference
import Rpitos.Boot.SelfUpdate

/-!
# Boot.Bootstrap

`kmain` of the bootstrap over RAM with 32-bit addresses. A read of `n` sectors copies all of them, or
fails with an error after any part of them.

* `bootstrap_checked`: for which headers the bulk load stays in the bootloader's region and the jump
  goes to what has been read and checked.
* `bootstrap_run_end`: for these the end is that of `bootstrap_kmain`.
-/

namespace Rpitos

open Function (update update_self update_of_ne)
open StatusCode

def BOOTLOADER_LOAD_ADDR : UInt32 := 0x10000
def BOOTLOADER_START_ADDR : Nat := 0x10000
def BOOT_FLAGS_START_ADDR : Nat := 0x88000

/-- RAM, by addresses. -/
abbrev Ram := UInt32 → UInt8

/-- An error of the card. -/
abbrev ReadError := { e : StatusCode // e ≠ E_OK }

/-- What goes wrong: in `emmc_init`, at the header, and at the image after so many bytes of it. -/
structure BootstrapIo where
  init : Option ReadError
  header : Option ReadError
  image : Option (ReadError × Nat)

/-- How the bootstrap ends, the RAM then, and the number of bytes that the bulk load has copied. -/
structure BootstrapRun where
  ended : BootstrapEnd
  ram : Ram
  loaded : Nat

/-- `n` bytes into RAM, from `addr` on. -/
def load_bytes (ram : Ram) (addr : UInt32) (src : Nat → UInt8) : Nat → Ram
  | 0 => ram
  | n + 1 => update (load_bytes ram addr src n) (addr + UInt32.ofNat n) (src n)

/-- `n` bytes of RAM, from `addr` on. -/
def ram_bytes (ram : Ram) (addr : UInt32) (n : Nat) : List UInt8 :=
  (List.range n).map fun i => ram (addr + UInt32.ofNat i)

/-- The result of a read of `count` sectors, and how many bytes it has copied. For no sectors the card
is not asked. -/
def sectors_read (count : Nat) (fault : Option (ReadError × Nat)) : StatusCode × Nat :=
  if count = 0 then (E_OK, 0)
  else match fault with
    | none => (E_OK, SECTOR_SIZE * count)
    | some (e, n) => (e, min n (SECTOR_SIZE * count))

/-- A byte of the image in the bootloader slot. -/
def slot_byte (E : Emmc) (i : Nat) : UInt8 :=
  E (EMMC_SECTOR_BOOTLOADER + 1 + i / SECTOR_SIZE) (i % SECTOR_SIZE)

/-- The header in the bootloader slot. -/
def slot_header (E : Emmc) : StartPacket := StartPacket.of_buffer (E EMMC_SECTOR_BOOTLOADER)

/-- `kmain`. -/
def bootstrap_run (E : Emmc) (header_buf : Sector) (ram : Ram) (io : BootstrapIo) : BootstrapRun :=
  if io.init.isSome then ⟨.hangs, ram, 0⟩
  else
    let r := emmc_read_blocks E EMMC_SECTOR_BOOTLOADER header_buf 1 (io.header.map Subtype.val)
    if r.1 ≠ E_OK then ⟨.hangs, ram, 0⟩
    else
      let hdr := StartPacket.of_buffer r.2
      if hdr.fw_length = 0 then ⟨.hangs, ram, 0⟩
      else
        let sectors := BYTES_TO_SECTORS hdr.fw_length.toNat
        let r := sectors_read sectors io.image
        let ram := load_bytes ram BOOTLOADER_LOAD_ADDR (slot_byte E) r.2
        if r.1 ≠ E_OK then ⟨.hangs, ram, r.2⟩
        else
          let actual_crc := crc32 (ram_bytes ram BOOTLOADER_LOAD_ADDR hdr.fw_length.toNat)
          ⟨if actual_crc ≠ hdr.crc then .hangs else .jumps, ram, r.2⟩

/-- The bulk load writes only in the bootloader's region, and a jump is to `fw_length` bytes that have
all been copied from the slot and have the header's CRC. -/
structure BootstrapSafe (E : Emmc) (header_buf : Sector) (ram : Ram) (io : BootstrapIo) : Prop where
  region : ∀ a : UInt32, ¬ (BOOTLOADER_START_ADDR ≤ a.toNat ∧ a.toNat < BOOT_FLAGS_START_ADDR) →
    (bootstrap_run E header_buf ram io).ram a = ram a
  checked : (bootstrap_run E header_buf ram io).ended = .jumps →
    (slot_header E).fw_length.toNat ≤ (bootstrap_run E header_buf ram io).loaded ∧
    ram_bytes (bootstrap_run E header_buf ram io).ram BOOTLOADER_LOAD_ADDR
        (slot_header E).fw_length.toNat =
      E.image (EMMC_SECTOR_BOOTLOADER + 1) (slot_header E).fw_length.toNat ∧
    crc32 (E.image (EMMC_SECTOR_BOOTLOADER + 1) (slot_header E).fw_length.toNat) =
      (slot_header E).crc

/-! ## RAM -/

section Ram

variable {ram : Ram} {addr a : UInt32} {src : Nat → UInt8} {n i : Nat}

/-- Within one turn around the address space no address comes twice. -/
theorem offset_eq (addr a : UInt32) (hn : n < 2 ^ 32) : a = addr + UInt32.ofNat n ↔ (a - addr).toNat = n := by
  constructor
  · rintro rfl
    rw [UInt32.add_comm, UInt32.add_sub_cancel, UInt32.toNat_ofNat', Nat.mod_eq_of_lt hn]
  · intro h
    rw [← h, UInt32.ofNat_toNat, UInt32.add_comm, UInt32.sub_add_cancel]

theorem load_bytes_apply (ram : Ram) (addr : UInt32) (src : Nat → UInt8) (hn : n ≤ 2 ^ 32)
    (a : UInt32) : load_bytes ram addr src n a =
      if (a - addr).toNat < n then src (a - addr).toNat else ram a := by
  induction n with
  | zero => rw [load_bytes, if_neg (Nat.not_lt_zero _)]
  | succ n ih =>
    rw [load_bytes]
    by_cases ha : a = addr + UInt32.ofNat n
    · have hoff := (offset_eq addr a (by omega)).mp ha
      rw [← ha, update_self, hoff, if_pos (Nat.lt_succ_self n)]
    · have hoff := mt (offset_eq addr a (by omega)).mpr ha
      rw [update_of_ne ha, ih (by omega)]
      exact if_congr (by omega) rfl rfl

theorem ram_bytes_load (hn : n ≤ 2 ^ 32) {m : Nat} (hm : m ≤ n) :
    ram_bytes (load_bytes ram addr src n) addr m = (List.range m).map src := by
  refine List.map_congr_left fun i hi => ?_
  have hi := List.mem_range.mp hi
  have hoff := (offset_eq addr (addr + UInt32.ofNat i) (by omega)).mp rfl
  rw [load_bytes_apply _ _ _ hn, hoff, if_pos (by omega)]

/-- RAM that holds these bytes from `addr` on. -/
def ram_of (addr : UInt32) (data : List UInt8) : Ram := fun a => data.getD (a - addr).toNat 0

theorem ram_bytes_of (addr : UInt32) (data : List UInt8) (hlen : data.length ≤ 2 ^ 32) :
    ram_bytes (ram_of addr data) addr data.length = data := by
  unfold ram_bytes ram_of
  refine List.ext_getElem (by simp) fun i hi hi' => ?_
  have hoff := (offset_eq addr (addr + UInt32.ofNat i) (by omega)).mp rfl
  rw [List.getElem_map, List.getElem_range, hoff, List.getD_eq_getElem?_getD,
    List.getElem?_eq_getElem hi', Option.getD_some]

end Ram

/-! ## A checksum that was asked for -/

theorem crc32b_surjective (byte : UInt8) : Function.Surjective fun crc => crc32b crc byte := by
  intro crc'
  obtain ⟨u, hu⟩ := crc32_bit_surjective.iterate 8 crc'
  refine ⟨u ^^^ byte.toUInt32, ?_⟩
  show crc32_bit^[8] (u ^^^ byte.toUInt32 ^^^ byte.toUInt32) = crc'
  rw [UInt32.xor_assoc, UInt32.xor_self, UInt32.xor_zero, hu]

/-- Any register can be reached through any data. -/
theorem crc32_reference_surjective (data : List UInt8) :
    Function.Surjective fun crc => crc32_reference crc data := by
  simp only [← foldl_crc32b]
  induction data with
  | nil => exact Function.surjective_id
  | cons b data ih => exact ih.comp (crc32b_surjective b)

/-- Four bytes in front of any data give it any checksum. -/
theorem crc32_forge (data : List UInt8) (crc : UInt32) :
    ∃ v, crc32 (word_bytes v ++ data) = crc := by
  obtain ⟨mid, hmid⟩ : ∃ mid, crc32_reference mid data = crc ^^^ 0xFFFFFFFF :=
    crc32_reference_surjective data _
  obtain ⟨v, hv⟩ := crc32_word_surjective crc32_start mid
  refine ⟨v, ?_⟩
  unfold crc32 crc32_finish
  rw [crc32_update_reference, crc32_reference_append, hv, hmid, UInt32.xor_assoc, UInt32.xor_self,
    UInt32.xor_zero]

/-! ## The bootstrap -/

section Run

variable {E : Emmc} {header_buf : Sector} {ram : Ram} {io : BootstrapIo}

theorem read_header (E : Emmc) (header_buf : Sector) :
    StartPacket.of_buffer (emmc_read_blocks E EMMC_SECTOR_BOOTLOADER header_buf 1 none).2 =
      slot_header E := by
  refine StartPacket.of_buffer_congr fun i hi => ?_
  have hlt : i < SECTOR_SIZE := Nat.lt_trans hi (by decide)
  dsimp only [emmc_read_blocks]
  rw [if_pos (by omega), Nat.div_eq_of_lt hlt, Nat.mod_eq_of_lt hlt, Nat.add_zero]

theorem sectors_read_le (count : Nat) (fault : Option (ReadError × Nat)) :
    (sectors_read count fault).2 ≤ SECTOR_SIZE * count := by
  unfold sectors_read
  split
  · exact Nat.zero_le _
  · split
    · exact Nat.le_refl _
    · exact Nat.min_le_right ..

theorem sectors_read_ok {count : Nat} {fault : Option (ReadError × Nat)}
    (h : (sectors_read count fault).1 = E_OK) :
    (sectors_read count fault).2 = SECTOR_SIZE * count := by
  unfold sectors_read at h ⊢
  split at h
  · rename_i hzero
    rw [hzero]
    rfl
  · rename_i hpos
    rw [if_neg hpos]
    split at h
    · rfl
    · rename_i e n
      exact absurd h e.property

/-- A run either hangs before the bulk load, for a fault or an empty image, or it loads, and jumps when
the load succeeds and the CRC matches. -/
theorem bootstrap_run_cases (E : Emmc) (header_buf : Sector) (ram : Ram) (io : BootstrapIo) :
    bootstrap_run E header_buf ram io = ⟨.hangs, ram, 0⟩ ∧
      (io.init.isSome ∨ io.header.isSome ∨ (slot_header E).fw_length = 0) ∨
    (slot_header E).fw_length ≠ 0 ∧ ∃ r,
      r = sectors_read (BYTES_TO_SECTORS (slot_header E).fw_length.toNat) io.image ∧
      bootstrap_run E header_buf ram io =
        ⟨if r.1 = E_OK ∧ crc32 (ram_bytes (load_bytes ram BOOTLOADER_LOAD_ADDR (slot_byte E) r.2)
            BOOTLOADER_LOAD_ADDR (slot_header E).fw_length.toNat) = (slot_header E).crc
          then .jumps else .hangs,
          load_bytes ram BOOTLOADER_LOAD_ADDR (slot_byte E) r.2, r.2⟩ := by
  unfold bootstrap_run
  by_cases hinit : io.init.isSome
  · rw [if_pos hinit]
    exact .inl ⟨rfl, .inl hinit⟩
  · rw [if_neg hinit]
    cases hh : io.header with
    | some e =>
      dsimp only [Option.map_some, emmc_read_blocks]
      rw [if_pos e.property]
      exact .inl ⟨rfl, .inr (.inl rfl)⟩
    | none =>
      have hread : (emmc_read_blocks E EMMC_SECTOR_BOOTLOADER header_buf 1 none).1 = E_OK := rfl
      dsimp only [Option.map_none]
      rw [read_header, if_neg (not_not_intro hread)]
      by_cases hzero : (slot_header E).fw_length = 0
      · rw [if_pos hzero]
        exact .inl ⟨rfl, .inr (.inr hzero)⟩
      · rw [if_neg hzero]
        refine .inr ⟨hzero, _, rfl, ?_⟩
        by_cases hok : (sectors_read (BYTES_TO_SECTORS (slot_header E).fw_length.toNat)
            io.image).1 = E_OK
        · rw [if_neg (not_not_intro hok)]
          by_cases hcrc : crc32 (ram_bytes (load_bytes ram BOOTLOADER_LOAD_ADDR (slot_byte E)
              (sectors_read (BYTES_TO_SECTORS (slot_header E).fw_length.toNat) io.image).2)
              BOOTLOADER_LOAD_ADDR (slot_header E).fw_length.toNat) = (slot_header E).crc
          · rw [if_neg (not_not_intro hcrc), if_pos ⟨hok, hcrc⟩]
          · rw [if_pos hcrc, if_neg fun h => hcrc h.2]
        · rw [if_pos hok, if_neg fun h => hok h.1]

/-- The size of the bootloader's region. -/
def BOOTLOADER_REGION_SIZE : Nat := BOOT_FLAGS_START_ADDR - BOOTLOADER_START_ADDR

theorem load_addr_toNat (a : UInt32) :
    a.toNat = (0x10000 + (a - BOOTLOADER_LOAD_ADDR).toNat) % 2 ^ 32 := by
  have hback : BOOTLOADER_LOAD_ADDR + (a - BOOTLOADER_LOAD_ADDR) = a := by
    rw [UInt32.add_comm, UInt32.sub_add_cancel]
  have hnat := UInt32.toNat_add BOOTLOADER_LOAD_ADDR (a - BOOTLOADER_LOAD_ADDR)
  rw [hback] at hnat
  exact hnat

/-- Sectors for a length that leaves room for the rounding. -/
theorem bytes_to_sectors_eq {n : Nat} (hn : n + 511 < 2 ^ 32) :
    BYTES_TO_SECTORS n = (n + 511) / 512 := by
  unfold BYTES_TO_SECTORS u32 SECTOR_SIZE
  rw [Nat.mod_eq_of_lt (by omega)]
  rfl

/-- The region is a whole number of sectors, so the rounding does not leave it. -/
theorem bootstrap_safe (hlen : (slot_header E).fw_length.toNat ≤ BOOTLOADER_REGION_SIZE)
    (header_buf : Sector) (ram : Ram) (io : BootstrapIo) : BootstrapSafe E header_buf ram io := by
  have hsize : BOOTLOADER_REGION_SIZE = 512 * 960 := rfl
  have hsectors : BYTES_TO_SECTORS (slot_header E).fw_length.toNat =
      ((slot_header E).fw_length.toNat + 511) / 512 := bytes_to_sectors_eq (by omega)
  have hle := sectors_read_le (BYTES_TO_SECTORS (slot_header E).fw_length.toNat) io.image
  rw [hsectors] at hle
  unfold SECTOR_SIZE at hle
  obtain ⟨hhang, -⟩ | ⟨-, r, hr, hrun⟩ := bootstrap_run_cases E header_buf ram io
  · refine ⟨fun a _ => ?_, fun hjump => ?_⟩
    · rw [hhang]
    · rw [hhang] at hjump
      cases hjump
  · rw [← hsectors, ← hr] at hle
    refine ⟨fun a ha => ?_, fun hjump => ?_⟩
    · -- an address outside the region is no offset below its size
      have hoff : ¬ (a - BOOTLOADER_LOAD_ADDR).toNat < r.2 := by
        intro hlt
        have hnat := load_addr_toNat a
        unfold BOOTLOADER_START_ADDR BOOT_FLAGS_START_ADDR at ha
        omega
      rw [hrun]
      dsimp only
      rw [load_bytes_apply _ _ _ (by omega), if_neg hoff]
    · rw [hrun] at hjump ⊢
      dsimp only at hjump ⊢
      by_cases hok : r.1 = E_OK ∧ crc32 (ram_bytes (load_bytes ram BOOTLOADER_LOAD_ADDR (slot_byte E)
          r.2) BOOTLOADER_LOAD_ADDR (slot_header E).fw_length.toNat) = (slot_header E).crc
      · have hall : r.2 = 512 * (((slot_header E).fw_length.toNat + 511) / 512) := by
          rw [hr] at hok ⊢
          rw [← hsectors]
          exact sectors_read_ok hok.1
        have hread : ram_bytes (load_bytes ram BOOTLOADER_LOAD_ADDR (slot_byte E) r.2)
            BOOTLOADER_LOAD_ADDR (slot_header E).fw_length.toNat =
            E.image (EMMC_SECTOR_BOOTLOADER + 1) (slot_header E).fw_length.toNat :=
          ram_bytes_load (by omega) (by omega)
        refine ⟨by omega, hread, ?_⟩
        rw [← hread]
        exact hok.2
      · rw [if_neg hok] at hjump
        cases hjump

theorem bootstrap_run_loads (hne : (slot_header E).fw_length ≠ 0) (header_buf : Sector) (ram : Ram)
    {n : Nat} (hn : SECTOR_SIZE * BYTES_TO_SECTORS (slot_header E).fw_length.toNat = n) :
    bootstrap_run E header_buf ram ⟨none, none, none⟩ =
      ⟨if crc32 (ram_bytes (load_bytes ram BOOTLOADER_LOAD_ADDR (slot_byte E) n)
          BOOTLOADER_LOAD_ADDR (slot_header E).fw_length.toNat) = (slot_header E).crc
        then .jumps else .hangs, load_bytes ram BOOTLOADER_LOAD_ADDR (slot_byte E) n, n⟩ := by
  obtain ⟨-, hfault⟩ | ⟨-, r, hr, hrun⟩ := bootstrap_run_cases E header_buf ram ⟨none, none, none⟩
  · obtain hfault | hfault | hzero := hfault
    · cases hfault
    · cases hfault
    · exact absurd hzero hne
  · have hread : ∀ count, sectors_read count none = (E_OK, SECTOR_SIZE * count) := by
      intro count
      unfold sectors_read
      split
      · rename_i hzero
        rw [hzero, Nat.mul_zero]
      · rfl
    rw [hread, hn] at hr
    rw [hrun, hr]
    simp only [true_and]

/-- A length past the region: the load goes on into the flags. -/
theorem bootstrap_past_region (hlen : BOOTLOADER_REGION_SIZE < (slot_header E).fw_length.toNat)
    (hround : (slot_header E).fw_length.toNat + 511 < 2 ^ 32) (header_buf : Sector) :
    ∃ ram io, ¬ BootstrapSafe E header_buf ram io := by
  have hsize : BOOTLOADER_REGION_SIZE = 512 * 960 := rfl
  have hne : (slot_header E).fw_length ≠ 0 := by
    intro hzero
    rw [hzero] at hlen
    cases hlen
  have hrun := bootstrap_run_loads hne header_buf (fun _ => slot_byte E (512 * 960) + 1) rfl
  refine ⟨fun _ => slot_byte E (512 * 960) + 1, ⟨none, none, none⟩, fun hsafe => ?_⟩
  have hflags := hsafe.region 0x88000 (by decide)
  have hoff : ((0x88000 : UInt32) - BOOTLOADER_LOAD_ADDR).toNat = 512 * 960 := by decide
  rw [hrun, bytes_to_sectors_eq hround] at hflags
  dsimp only at hflags
  rw [load_bytes_apply _ _ _ (by unfold SECTOR_SIZE; omega), hoff,
    if_pos (by unfold SECTOR_SIZE; omega)] at hflags
  have h01 : (0 : UInt8) = 1 := by
    rw [← UInt8.add_right_inj (slot_byte E (512 * 960)), UInt8.add_zero]
    exact hflags
  cases h01

/-- A length so large that the rounding wraps: nothing is loaded, and RAM that happens to have the
header's CRC is accepted. -/
theorem bootstrap_stale (hround : 2 ^ 32 ≤ (slot_header E).fw_length.toNat + 511)
    (header_buf : Sector) : ∃ ram io, ¬ BootstrapSafe E header_buf ram io := by
  have hlt := (slot_header E).fw_length.toNat_lt
  obtain ⟨n, hn⟩ : ∃ n, (slot_header E).fw_length.toNat = n + 4 :=
    ⟨(slot_header E).fw_length.toNat - 4, by omega⟩
  have hne : (slot_header E).fw_length ≠ 0 := by
    intro hzero
    rw [hzero] at hn
    cases hn
  have hsectors : SECTOR_SIZE * BYTES_TO_SECTORS (slot_header E).fw_length.toNat = 0 := by
    unfold BYTES_TO_SECTORS u32 SECTOR_SIZE
    omega
  obtain ⟨v, hv⟩ := crc32_forge (List.replicate n 0) (slot_header E).crc
  have hdata : (word_bytes v ++ List.replicate n 0).length = (slot_header E).fw_length.toNat := by
    rw [List.length_append, List.length_replicate, hn]
    exact Nat.add_comm 4 n
  have hbytes := ram_bytes_of BOOTLOADER_LOAD_ADDR (word_bytes v ++ List.replicate n 0) (by omega)
  rw [hdata] at hbytes
  have hrun := bootstrap_run_loads hne header_buf
    (ram_of BOOTLOADER_LOAD_ADDR (word_bytes v ++ List.replicate n 0)) hsectors
  rw [load_bytes, hbytes, hv, if_pos rfl] at hrun
  refine ⟨ram_of BOOTLOADER_LOAD_ADDR (word_bytes v ++ List.replicate n 0), ⟨none, none, none⟩,
    fun hsafe => ?_⟩
  obtain ⟨hloaded, -, -⟩ := hsafe.checked (by rw [hrun])
  rw [hrun, hn] at hloaded
  cases hloaded

/-- For an image that fits the region, the end is that over the memory behind the load address. -/
theorem bootstrap_run_end (hlen : (slot_header E).fw_length.toNat ≤ BOOTLOADER_REGION_SIZE)
    (header_buf : Sector) (ram : Ram) (io : BootstrapIo) (hinit : io.init = none) :
    (bootstrap_run E header_buf ram io).ended =
      bootstrap_kmain E header_buf (fun i => ram (BOOTLOADER_LOAD_ADDR + UInt32.ofNat i))
        (io.header.map Subtype.val, io.image.map fun fault => fault.1.val) := by
  have hsize : BOOTLOADER_REGION_SIZE = 512 * 960 := rfl
  have hsectors : BYTES_TO_SECTORS (slot_header E).fw_length.toNat =
      ((slot_header E).fw_length.toNat + 511) / 512 := bytes_to_sectors_eq (by omega)
  unfold bootstrap_run bootstrap_kmain
  rw [hinit, if_neg (by decide)]
  cases hh : io.header with
  | some e =>
    dsimp only [Option.map_some, emmc_read_blocks]
    rw [if_pos e.property, if_pos e.property]
  | none =>
    have hread : (emmc_read_blocks E EMMC_SECTOR_BOOTLOADER header_buf 1 none).1 = E_OK := rfl
    dsimp only [Option.map_none]
    rw [read_header, if_neg (not_not_intro hread), if_neg (not_not_intro hread)]
    by_cases hzero : (slot_header E).fw_length = 0
    · rw [if_pos hzero, if_pos hzero]
    · have hpos : 0 < (slot_header E).fw_length.toNat :=
        Nat.pos_of_ne_zero fun h => hzero (UInt32.toNat_inj.mp h)
      have hcount : ¬ ((slot_header E).fw_length.toNat + 511) / 512 = 0 := by omega
      rw [if_neg hzero, if_neg hzero, hsectors]
      unfold sectors_read
      simp only [if_neg hcount]
      cases hi : io.image with
      | some fault =>
        dsimp only [Option.map_some]
        rw [if_pos fault.1.property]
        exact (if_pos fault.1.property).symm
      | none =>
        have hok : (emmc_read_blocks E (EMMC_SECTOR_BOOTLOADER + 1)
            (fun i => ram (BOOTLOADER_LOAD_ADDR + UInt32.ofNat i))
            (((slot_header E).fw_length.toNat + 511) / 512) none).1 = E_OK := rfl
        simp only [Option.map_none, if_neg (not_not_intro hok), ne_eq, not_true_eq_false, if_false]
        -- both sums go over the image
        have hram : ram_bytes (load_bytes ram BOOTLOADER_LOAD_ADDR (slot_byte E)
            (SECTOR_SIZE * (((slot_header E).fw_length.toNat + 511) / 512))) BOOTLOADER_LOAD_ADDR
            (slot_header E).fw_length.toNat =
            (List.range (slot_header E).fw_length.toNat).map (slot_byte E) := by
          unfold SECTOR_SIZE
          exact ram_bytes_load (by omega) (by omega)
        have hbuf : bytes_at (emmc_read_blocks E (EMMC_SECTOR_BOOTLOADER + 1)
            (fun i => ram (BOOTLOADER_LOAD_ADDR + UInt32.ofNat i))
            (((slot_header E).fw_length.toNat + 511) / 512) none).2 0
            (slot_header E).fw_length.toNat =
            (List.range (slot_header E).fw_length.toNat).map (slot_byte E) := by
          refine List.map_congr_left fun i hi => ?_
          have hi := List.mem_range.mp hi
          dsimp only [emmc_read_blocks]
          rw [Nat.zero_add, if_pos (by unfold SECTOR_SIZE; omega)]
          rfl
        simp only [hram, hbuf]

end Run

/-- For every content of the bootloader slot: whatever RAM holds and whichever reads fail, the bulk
load stays in the bootloader's region and the bootstrap jumps only to what it has read and checked, if
and only if the header's length is at most the size of the region. -/
theorem bootstrap_checked (E : Emmc) (header_buf : Sector) :
    (∀ ram io, BootstrapSafe E header_buf ram io) ↔
      (slot_header E).fw_length.toNat ≤ BOOTLOADER_REGION_SIZE := by
  constructor
  · intro hall
    by_contra hlen
    have hbad : ∃ ram io, ¬ BootstrapSafe E header_buf ram io := by
      by_cases hround : (slot_header E).fw_length.toNat + 511 < 2 ^ 32
      · exact bootstrap_past_region (by omega) hround header_buf
      · exact bootstrap_stale (by omega) header_buf
    obtain ⟨ram, io, hbad⟩ := hbad
    exact hbad (hall ram io)
  · intro hlen ram io
    exact bootstrap_safe hlen header_buf ram io

/-- A header one byte too long for the region, with 961 sectors behind it. -/
def long_bootloader : Emmc :=
  update (fun _ _ => 0) EMMC_SECTOR_BOOTLOADER (buffer_of ([1, 0x78001, 0].flatMap word_bytes))

theorem bootstrap_long_header :
    ¬ ∀ E header_buf ram io, BootstrapSafe E header_buf ram io := by
  intro hall
  have hhdr : slot_header long_bootloader = ⟨1, 0x78001, 0⟩ := by
    unfold slot_header long_bootloader
    rw [update_self, StartPacket.of_words]
  obtain ⟨ram, io, hbad⟩ := bootstrap_past_region (E := long_bootloader)
    (by rw [hhdr]; decide) (by rw [hhdr]; decide) fun _ => 0
  exact hbad (hall ..)

end Rpitos
