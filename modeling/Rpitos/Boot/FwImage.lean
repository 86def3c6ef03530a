import Rpitos.Boot.HostRuns

/-!
# Boot.FwImage

`make_fw_image.py`, and `boot_validate_app` on what it builds. `boot_validate_app_images`: the
validation terminates, accepts exactly the slots whose header fits their image, among them what
`build_image` has built, and rejects it when a bit of the CRC or of the binary is flipped.
-/

namespace Rpitos

open Function StatusCode

/-! ## Termination -/

/-- The loop of `boot_validate_app`, when it may run out of fuel. -/
def validate_loop_fuel (read : Nat → Option Sector) :
    (fuel remaining sector : Nat) → UInt32 → Sector → Option (UInt32 × Sector)
  | 0, _, _, _, _ => none
  | fuel + 1, remaining, sector, crc, buf =>
    if remaining = 0 then some (crc, buf)
    else
      let buf := (read sector).getD buf
      let chunk := if remaining < SECTOR_SIZE then remaining else SECTOR_SIZE
      validate_loop_fuel read fuel (remaining - chunk) (sector + 1)
        (crc32_update crc (bytes_at buf 0 chunk)) buf

def boot_validate_fuel (fuel : Nat) (read : Nat → Option Sector) (buf : Sector) (app_sector : Nat) :
    Option (StatusCode × Sector) :=
  let buf := (read app_sector).getD buf
  let start_pkt := StartPacket.of_buffer buf
  if start_pkt.version_num ≠ 1 ∨ start_pkt.fw_length = 0 then some (E_CORRUPTED, buf)
  else
    (validate_loop_fuel read fuel start_pkt.fw_length.toNat (app_sector + 1) crc32_start buf).map
      fun r => (if crc32_finish r.1 = start_pkt.crc then E_OK else E_CORRUPTED, r.2)

section Termination

variable (read : Nat → Option Sector)

/-- Every pass takes a byte at least, so the loop ends. -/
theorem validate_loop_fuel_eq (fuel : Nat) : ∀ (remaining n sector : Nat) (crc : UInt32)
    (buf : Sector), remaining < fuel → remaining ≤ n →
    validate_loop_fuel read fuel remaining sector crc buf =
      some (validate_loop read n remaining sector crc buf) := by
  induction fuel with
  | zero => exact fun _ _ _ _ _ h => absurd h (Nat.not_lt_zero _)
  | succ fuel ih =>
    intro remaining n sector crc buf hfuel hn
    unfold validate_loop_fuel
    by_cases hzero : remaining = 0
    · rw [if_pos hzero]
      cases n with
      | zero => rfl
      | succ n => rw [validate_loop, if_pos hzero]
    · cases n with
      | zero => omega
      | succ n =>
        rw [if_neg hzero, validate_loop, if_neg hzero]
        refine ih _ n _ _ _ ?_ ?_
        · split
          · omega
          · unfold SECTOR_SIZE
            omega
        · split
          · omega
          · unfold SECTOR_SIZE
            omega

theorem boot_validate_terminates (buf : Sector) (app_sector : Nat) : ∃ n, ∀ fuel, n < fuel →
    boot_validate_fuel fuel read buf app_sector = some (boot_validate_app read buf app_sector) := by
  refine ⟨(StartPacket.of_buffer ((read app_sector).getD buf)).fw_length.toNat, fun fuel h => ?_⟩
  unfold boot_validate_fuel boot_validate_app
  dsimp only
  split
  · rfl
  · rw [validate_loop_fuel_eq read fuel _ _ _ _ _ h (Nat.le_refl _)]
    rfl

end Termination

/-! ## What is accepted -/

/-- `build_image`: a header sector and the binary, or `none` when `struct.pack` fails. -/
def build_image (binary : List UInt8) (version : Nat) : Option (List UInt8) :=
  if version < 2 ^ 32 ∧ binary.length < 2 ^ 32 then
    let fw_length := UInt32.ofNat binary.length
    let checksum := zlib_crc32 binary
    let header_bytes := [UInt32.ofNat version, fw_length, checksum].flatMap word_bytes
    some (header_bytes ++ List.replicate (SECTOR_SIZE - START_PACKET_SIZE) 0 ++ binary)
  else none

/-- The card holds these bytes from a sector on. -/
def Emmc.SlotHolds (E : Emmc) (sector : Nat) (image : List UInt8) : Prop :=
  E.image sector image.length = image

/-- Bit `j` of byte `i` flipped. -/
def flip_bit (data : List UInt8) (i j : Nat) : List UInt8 :=
  data.set i (data.getD i 0 ^^^ (1 <<< UInt8.ofNat j))

theorem flip_bit_ne (b : UInt8) {j : Nat} (hj : j < 8) : b ^^^ (1 <<< UInt8.ofNat j) ≠ b := by
  intro h
  have hzero : (1 : UInt8) <<< UInt8.ofNat j = 0 :=
    (UInt8.xor_right_inj b).mp (h.trans (UInt8.xor_zero (a := b)).symm)
  interval_cases j <;> exact absurd hzero (by decide)

theorem word_at_congr {buf buf' : Sector} {off : Nat}
    (h : ∀ k, off ≤ k → k < off + 4 → buf k = buf' k) : word_at buf off = word_at buf' off := by
  unfold word_at
  rw [h off (Nat.le_refl _) (by omega), h (off + 1) (by omega) (by omega),
    h (off + 2) (by omega) (by omega), h (off + 3) (by omega) (by omega)]

/-- The bytes of a word can be read off it. -/
theorem word_at_inj {buf buf' : Sector} {off k : Nat} (h : word_at buf off = word_at buf' off)
    (hk : off ≤ k) (hk' : k < off + 4) : buf k = buf' k := by
  have hbytes := congrArg word_bytes h
  unfold word_at at hbytes
  rw [word_bytes_word, word_bytes_word] at hbytes
  simp only [List.cons.injEq, and_true] at hbytes
  obtain ⟨h0, h1, h2, h3⟩ := hbytes
  have hcases : k = off ∨ k = off + 1 ∨ k = off + 2 ∨ k = off + 3 := by omega
  rcases hcases with rfl | rfl | rfl | rfl
  · exact h0
  · exact h1
  · exact h2
  · exact h3

/-- Behind the header words, up to the binary. -/
def header_padding : List UInt8 := List.replicate (SECTOR_SIZE - START_PACKET_SIZE) 0

theorem build_image_eq {binary image : List UInt8} (h : build_image binary 1 = some image) :
    binary.length < 2 ^ 32 ∧ image = start_packet binary ++ header_padding ++ binary := by
  unfold build_image at h
  split at h
  · rename_i hlen
    cases h
    exact ⟨hlen.2, rfl⟩
  · cases h

/-- The header words of `build_image`, in a buffer that holds them. -/
theorem header_word {buf : Sector} (binary : List UInt8) {k : Nat} (hk : k < 3)
    (h : ∀ i, 4 * k ≤ i → i < 4 * k + 4 →
      buf i = buffer_of (start_packet binary ++ header_padding) i) :
    word_at buf (4 * k) = [1, UInt32.ofNat binary.length, zlib_crc32 binary].getD k 0 := by
  rw [← word_at_words]
  refine word_at_congr fun i hi hi' => ?_
  rw [h i hi hi']
  exact List.getD_append (start_packet binary) header_padding 0 i (by
    rw [start_packet_length, START_PACKET_SIZE]
    omega)

theorem buffer_of_set {data : List UInt8} {i : Nat} (hi : i < data.length) (b : UInt8) :
    buffer_of (data.set i b) = update (buffer_of data) i b := by
  funext k
  unfold buffer_of
  rw [List.getD_eq_getElem?_getD, List.getElem?_set]
  by_cases hk : i = k
  · subst hk
    rw [if_pos rfl, if_pos hi, update_self]
    rfl
  · rw [if_neg hk, update_of_ne (Ne.symm hk), List.getD_eq_getElem?_getD]

section Slot

variable {E : Emmc} {app_sector : Nat} {header binary : List UInt8}

/-- A header sector and a binary, on the card. -/
theorem slot_holds_split (hheader : header.length = SECTOR_SIZE)
    (h : E.SlotHolds app_sector (header ++ binary)) :
    (∀ k, k < SECTOR_SIZE → E app_sector k = buffer_of header k) ∧
      E.image (app_sector + 1) binary.length = binary := by
  unfold Emmc.SlotHolds at h
  rw [List.length_append, hheader, E.image_succ] at h
  obtain ⟨hbytes, himage⟩ := List.append_inj h (by rw [hheader]; simp [bytes_at])
  refine ⟨fun k hk => ?_, himage⟩
  have hget := congrArg (fun l : List UInt8 => l.getD k 0) hbytes
  have hlen : k < (bytes_at (E app_sector) 0 SECTOR_SIZE).length := by
    rw [hbytes, hheader]
    exact hk
  refine Eq.trans ?_ hget
  rw [List.getD_eq_getElem _ _ hlen]
  simp only [bytes_at, List.getElem_map, List.getElem_range, Nat.zero_add]

theorem header_length (binary : List UInt8) :
    (start_packet binary ++ header_padding).length = SECTOR_SIZE := by
  rw [List.length_append, start_packet_length, header_padding, List.length_replicate]
  rfl

/-- A binary with the version and the length of `build_image` before it is valid exactly if the CRC
fits. -/
theorem valid_app_iff (hne : binary ≠ []) (hlen : binary.length < 2 ^ 32) {data : List UInt8}
    (hdata : data.length = binary.length)
    (h : ∀ i, i < 8 → E app_sector i = buffer_of (start_packet binary ++ header_padding) i)
    (himage : E.image (app_sector + 1) data.length = data) :
    E.ValidApp app_sector ↔ crc32 data = word_at (E app_sector) (4 * 2) := by
  have hversion : word_at (E app_sector) (4 * 0) = 1 :=
    header_word binary (by decide) fun i _ hi => h i (by omega)
  have hfw : word_at (E app_sector) (4 * 1) = UInt32.ofNat binary.length :=
    header_word binary (by decide) fun i _ hi => h i (by omega)
  have hnat : (UInt32.ofNat binary.length).toNat = binary.length := UInt32.toNat_ofNat_of_lt' hlen
  have hpos : UInt32.ofNat binary.length ≠ 0 := by
    intro hzero
    rw [hzero] at hnat
    exact hne (List.length_eq_zero_iff.mp hnat.symm)
  unfold Emmc.ValidApp StartPacket.of_buffer
  dsimp only
  rw [hversion, hfw, hnat, ← hdata, himage]
  exact ⟨fun hv => hv.2.2, fun hcrc => ⟨rfl, hdata ▸ hpos, hcrc⟩⟩

variable {image : List UInt8}

/-- What `build_image` has built is valid, whatever stands behind it. -/
theorem build_image_valid (hne : binary ≠ []) (hbuild : build_image binary 1 = some image)
    (h : E.SlotHolds app_sector image) : E.ValidApp app_sector := by
  obtain ⟨hlen, rfl⟩ := build_image_eq hbuild
  obtain ⟨hheader, himage⟩ := slot_holds_split (header_length binary) h
  have hbelow : ∀ i, i < 12 → i < SECTOR_SIZE := fun i hi => Nat.lt_of_lt_of_le hi (by decide)
  have hcrc : word_at (E app_sector) (4 * 2) = zlib_crc32 binary :=
    header_word binary (by decide) fun i _ hi => hheader i (hbelow i hi)
  rw [valid_app_iff hne hlen rfl (fun i hi => hheader i (hbelow i (by omega))) himage, hcrc,
    zlib_crc32_eq]

/-- With a bit of the stored CRC flipped it is not. -/
theorem flip_crc_invalid (hne : binary ≠ []) (hbuild : build_image binary 1 = some image) {i j : Nat}
    (hi : 8 ≤ i) (hi' : i < 12) (hj : j < 8) (h : E.SlotHolds app_sector (flip_bit image i j)) :
    ¬E.ValidApp app_sector := by
  obtain ⟨hlen, rfl⟩ := build_image_eq hbuild
  have hheader : i < (start_packet binary ++ header_padding).length := by
    rw [header_length]
    exact Nat.lt_of_lt_of_le hi' (by decide)
  have hbelow : ∀ k, k < 12 → k < SECTOR_SIZE := fun k hk => Nat.lt_of_lt_of_le hk (by decide)
  unfold flip_bit at h
  rw [List.getD_append _ _ _ _ hheader, List.set_append_left _ _ hheader] at h
  obtain ⟨hbytes, himage⟩ := slot_holds_split ((List.length_set ..).trans (header_length binary)) h
  rw [buffer_of_set hheader] at hbytes
  have hflipped : E app_sector i =
      buffer_of (start_packet binary ++ header_padding) i ^^^ (1 <<< UInt8.ofNat j) :=
    (hbytes i (hbelow i hi')).trans (update_self ..)
  have hrest : ∀ k, k < 8 → E app_sector k = buffer_of (start_packet binary ++ header_padding) k :=
    fun k hk => (hbytes k (hbelow k (by omega))).trans (update_of_ne (by omega) ..)
  have hcrc : word_at (buffer_of (start_packet binary ++ header_padding)) (4 * 2) =
      zlib_crc32 binary := header_word binary (by decide) fun _ _ _ => rfl
  rw [valid_app_iff hne hlen rfl hrest himage, ← zlib_crc32_eq, ← hcrc]
  intro hsame
  exact flip_bit_ne _ hj (hflipped.symm.trans (word_at_inj hsame hi hi').symm)

/-- Nor with a bit of the binary flipped. -/
theorem flip_binary_invalid (hne : binary ≠ []) (hbuild : build_image binary 1 = some image)
    {i j : Nat} (hi : SECTOR_SIZE ≤ i) (hi' : i < image.length) (hj : j < 8)
    (h : E.SlotHolds app_sector (flip_bit image i j)) : ¬E.ValidApp app_sector := by
  obtain ⟨hlen, rfl⟩ := build_image_eq hbuild
  have hheader := header_length binary
  obtain ⟨k, rfl⟩ := Nat.exists_eq_add_of_le hi
  rw [List.length_append, hheader, Nat.add_lt_add_iff_left] at hi'
  unfold flip_bit at h
  rw [List.getD_append_right _ _ _ _ (by rw [hheader]; exact hi), hheader,
    List.set_append_right _ _ (by rw [hheader]; exact hi), hheader, Nat.add_sub_cancel_left] at h
  obtain ⟨hbytes, himage⟩ := slot_holds_split hheader h
  have hbelow : ∀ i, i < 12 → i < SECTOR_SIZE := fun i hi => Nat.lt_of_lt_of_le hi (by decide)
  have hcrc : word_at (E app_sector) (4 * 2) = zlib_crc32 binary :=
    header_word binary (by decide) fun i _ hi => hbytes i (hbelow i hi)
  rw [valid_app_iff hne hlen (List.length_set ..) (fun i hi => hbytes i (hbelow i (by omega))) himage,
    hcrc, zlib_crc32_eq]
  refine crc32_set hi' ?_
  rw [List.getD_eq_getElem _ _ hi']
  exact flip_bit_ne _ hj

end Slot

/-- `boot_validate_app` on any card whose reads succeed, and any slot: it terminates; it returns `E_OK`
exactly if the version is one, the length is not zero and the CRC of the image is that of the header;
so it accepts what `build_image` has built, whatever stands behind it, and neither a stored CRC nor a
binary with a bit flipped. -/
theorem boot_validate_app_images (E : Emmc) (buf : Sector) (slot : UInt32) :
    let app_sector := APP_SLOT_TO_SECTOR slot
    let start_pkt := StartPacket.of_buffer (E app_sector)
    let result := (boot_validate_app E.reads buf app_sector).1
    (∃ n, ∀ fuel, n < fuel → boot_validate_fuel fuel E.reads buf app_sector =
      some (boot_validate_app E.reads buf app_sector)) ∧
    (result = E_OK ↔ start_pkt.version_num = 1 ∧ 0 < start_pkt.fw_length ∧
      zlib_crc32 (E.image (app_sector + 1) start_pkt.fw_length.toNat) = start_pkt.crc) ∧
    ∀ binary image, binary ≠ [] → build_image binary 1 = some image →
      (E.SlotHolds app_sector image → result = E_OK) ∧
      (∀ i j, 8 ≤ i ∧ i < 12 ∨ SECTOR_SIZE ≤ i ∧ i < image.length → j < 8 →
        E.SlotHolds app_sector (flip_bit image i j) → result ≠ E_OK) := by
  have hok := boot_validate_app_ok E buf (APP_SLOT_TO_SECTOR slot)
  refine ⟨boot_validate_terminates E.reads buf _, ?_, fun binary image hne hbuild => ⟨fun h => ?_, ?_⟩⟩
  · rw [hok, zlib_crc32_eq]
    unfold Emmc.ValidApp
    rw [UInt32.pos_iff_ne_zero]
  · exact hok.mpr (build_image_valid hne hbuild h)
  · intro i j hi hj h hresult
    have hvalid := hok.mp hresult
    rcases hi with ⟨hi, hi'⟩ | ⟨hi, hi'⟩
    · exact flip_crc_invalid hne hbuild hi hi' hj h hvalid
    · exact flip_binary_invalid hne hbuild hi hi' hj h hvalid

/-- A card that holds these bytes from a sector on. -/
def card_with (sector : Nat) (image : List UInt8) : Emmc :=
  fun s i => image.getD ((s - sector) * SECTOR_SIZE + i) 0

theorem card_with_holds (sector : Nat) (image : List UInt8) :
    (card_with sector image).SlotHolds sector image := by
  refine List.ext_getElem (by simp [Emmc.image]) fun i hi hi' => ?_
  simp only [Emmc.image, card_with, List.getElem_map, List.getElem_range]
  rw [Nat.add_sub_cancel_left, Nat.mul_comm, Nat.div_add_mod, List.getD_eq_getElem _ _ hi']

theorem boot_validate_app_one_byte : ∃ image, build_image [0x42] 1 = some image ∧
    (boot_validate_app (card_with EMMC_SECTOR_APP_B image).reads (fun _ => 0)
      EMMC_SECTOR_APP_B).1 = E_OK := by
  refine ⟨_, rfl, ?_⟩
  exact ((boot_validate_app_images (card_with EMMC_SECTOR_APP_B _) (fun _ => 0) APP_SLOT_B).2.2
    [0x42] _ (List.cons_ne_nil _ _) rfl).1 (card_with_holds ..)

end Rpitos
