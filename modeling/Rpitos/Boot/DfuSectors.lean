import Mathlib.Data.List.GetD
import Rpitos.Boot.DfuRuns

/-!
# Boot.DfuSectors

The sector writer of a session. `Placed n`: the filled sectors hold the image bytes below `n`, the
sector buffer holds the rest, and the counters are in step. `Placed.data` keeps it over a packet, also
one that is split over two sectors; `Placed.flush`: the last sector ends with zeros.

The bound `n` is for errors of the card: nothing is asked of the writes behind it.
-/

namespace Rpitos

open Function StatusCode DfuState

/-- The write leaves these first bytes on the card: it reports no error, or they are there already. -/
def Emmc.leaves (E : Emmc) (sector : Nat) (buf : Sector) (n : Nat) (f : Option StatusCode) : Prop :=
  f = none ∨ ∀ j, j < n → j < SECTOR_SIZE → E sector j = buf j

theorem emmc_write_blocks_of_ne {E : Emmc} {sector s : Nat} {buf : Sector} {f : Option StatusCode}
    (h : s ≠ sector) : (emmc_write_blocks E sector buf f).2 s = E s := by
  unfold emmc_write_blocks
  split
  · rfl
  · cases f with
    | none => exact update_of_ne h ..
    | some e => rfl

theorem Emmc.leaves_write {E : Emmc} {sector n j : Nat} {buf : Sector} {f : Option StatusCode}
    (hfloor : EMMC_FIRMWARE_FLOOR ≤ sector) (h : E.leaves sector buf n f) (hj : j < n)
    (hj' : j < SECTOR_SIZE) : (emmc_write_blocks E sector buf f).2 sector j = buf j := by
  unfold emmc_write_blocks
  rw [if_neg (by omega)]
  cases f with
  | none =>
    dsimp only
    rw [update_self, clip, if_pos hj']
  | some e =>
    rcases h with h | h
    · cases h
    · exact h j hj hj'

/-- The sector buffer when a data packet has filled it. -/
def Dfu.filled (X : Dfu) (p : DFU_Packet) : Sector :=
  copy_bytes X.current_sector X.current_sector_counter p.DATA
    (SECTOR_SIZE - X.current_sector_counter)

/-- The sector buffer with zeros behind the image. -/
def Dfu.padded (X : Dfu) : Sector :=
  copy_bytes X.current_sector X.current_sector_counter (fun _ => 0)
    (SECTOR_SIZE - X.current_sector_counter)

/-- The bytes of a session so far, and a packet's behind them. -/
theorem getD_append_bytes (data : List UInt8) (buf : Sector) (n i : Nat) :
    (data ++ bytes_at buf 0 n).getD i 0 =
      if i < data.length then data.getD i 0
      else if i - data.length < n then buf (i - data.length) else 0 := by
  unfold bytes_at
  split
  · rename_i h
    exact List.getD_append data _ 0 i h
  · rename_i h
    rw [List.getD_append_right data _ 0 i (Nat.le_of_not_lt h), List.getD_eq_getElem?_getD]
    split
    · rename_i hn
      simp [hn]
    · rename_i hn
      rw [List.getElem?_eq_none (by simpa using hn)]
      rfl

/-- The first bytes of what the sectors hold. -/
theorem Emmc.image_eq_take {E : Emmc} {sector n : Nat} {data : List UInt8}
    (h : ∀ i, i < n → E (sector + i / SECTOR_SIZE) (i % SECTOR_SIZE) = data.getD i 0)
    (hn : n ≤ data.length) : E.image sector n = data.take n := by
  refine List.ext_getElem ?_ fun i hi hi' => ?_
  · simp [Emmc.image, hn]
  · have hi' : i < n := by
      rw [List.length_take] at hi'
      omega
    have hbyte := h i hi'
    rw [List.getD_eq_getElem _ _ (Nat.lt_of_lt_of_le hi' hn)] at hbyte
    simp only [Emmc.image, List.getElem_map, List.getElem_range, List.getElem_take]
    exact hbyte

/-- A session that has begun: the header and the image bytes below `n` are on the card, as far as they
fill sectors, and the rest is in the sector buffer. -/
structure Placed (n : Nat) (X : Dfu) : Prop where
  floor : EMMC_FIRMWARE_FLOOR ≤ X.dfu_base_sector
  room : X.dfu_base_sector + X.data.length / SECTOR_SIZE < 2 ^ 32
  sectors : X.sectors_written = 1 + X.data.length / SECTOR_SIZE
  counter : X.current_sector_counter = X.data.length % SECTOR_SIZE
  /-- Nothing is left to write only between two sectors. -/
  pending : X.unwritten_sector = false → X.current_sector_counter = 0
  header : bytes_at (X.emmc X.dfu_base_sector) 0 START_PACKET_SIZE = X.header
  image : ∀ i, i < n → i / SECTOR_SIZE < X.data.length / SECTOR_SIZE →
    X.emmc (X.dfu_base_sector + 1 + i / SECTOR_SIZE) (i % SECTOR_SIZE) = X.data.getD i 0
  buffer : ∀ i, i < X.current_sector_counter →
    X.current_sector i = X.data.getD (SECTOR_SIZE * (X.data.length / SECTOR_SIZE) + i) 0

namespace Placed

variable {n : Nat} {X : Dfu} {p : DFU_Packet} {f : Option StatusCode} {sector : Nat}

theorem counter_lt (h : Placed n X) : X.current_sector_counter < SECTOR_SIZE := by
  rw [h.counter]
  exact Nat.mod_lt _ (by decide)

/-- The sector that is written next, when its number does not wrap. -/
theorem next_sector (h : Placed n X) (hroom : X.dfu_base_sector + X.sectors_written < 2 ^ 32) :
    u32 (X.dfu_base_sector + X.sectors_written) =
      X.dfu_base_sector + 1 + X.data.length / SECTOR_SIZE := by
  rw [h.sectors, ← Nat.add_assoc] at hroom ⊢
  exact Nat.mod_eq_of_lt hroom

/-- The start packet. -/
theorem start (hfloor : EMMC_FIRMWARE_FLOOR ≤ sector) (hroom : sector < 2 ^ 32)
    (hdata : X.data = []) (hcounter : X.current_sector_counter = 0) (self : Bool)
    (hleaves : X.emmc.leaves sector (copy_bytes X.current_sector 0 p.DATA START_PACKET_SIZE)
      START_PACKET_SIZE f) : Placed n (X.begin_session p sector self f) where
  floor := hfloor
  room := by
    show sector + X.data.length / SECTOR_SIZE < 2 ^ 32
    rw [hdata]
    exact hroom
  sectors := by
    show 1 = 1 + X.data.length / SECTOR_SIZE
    rw [hdata]
    rfl
  counter := by
    show X.current_sector_counter = X.data.length % SECTOR_SIZE
    rw [hdata, hcounter]
    rfl
  pending _ := hcounter
  header := by
    refine List.map_congr_left fun i hi => ?_
    have hi : i < START_PACKET_SIZE := List.mem_range.mp hi
    show (emmc_write_blocks X.emmc sector (copy_bytes X.current_sector 0 p.DATA START_PACKET_SIZE)
      f).2 sector (0 + i) = p.DATA i
    rw [Nat.zero_add, Emmc.leaves_write hfloor hleaves hi (Nat.lt_trans hi (by decide)),
      copy_bytes_apply, if_pos ⟨Nat.zero_le i, by omega⟩, Nat.sub_zero]
  image i _ hi := by
    have hi : i / SECTOR_SIZE < X.data.length / SECTOR_SIZE := hi
    rw [hdata] at hi
    exact absurd hi (Nat.not_lt_zero _)
  buffer i hi := by
    have hi : i < X.current_sector_counter := hi
    omega

/-- A packet that fills the sector: the sector goes to the card, and the buffer has what is left. -/
theorem spill (h : Placed n X) (hlen : p.LEN ≤ MAX_DATA_SIZE_BYTES)
    (hfull : SECTOR_SIZE ≤ X.current_sector_counter + p.LEN)
    (hroom : X.dfu_base_sector + X.sectors_written < 2 ^ 32)
    (hleaves : X.emmc.leaves (X.dfu_base_sector + X.sectors_written) (X.filled p)
      (n - SECTOR_SIZE * (X.data.length / SECTOR_SIZE)) f) :
    Placed n { X.spill p f with data := X.data ++ bytes_at p.DATA 0 p.LEN } := by
  have hsz : (X.data ++ bytes_at p.DATA 0 p.LEN).length = X.data.length + p.LEN := by
    simp [bytes_at]
  have hfloor := h.floor
  have hsectors := h.sectors
  have hcounter := h.counter
  have hpos := h.counter_lt
  have hdm := Nat.div_add_mod X.data.length SECTOR_SIZE
  have hq0 := Nat.zero_le (X.data.length / SECTOR_SIZE)
  rw [← hcounter] at hdm
  have hsector := h.next_sector hroom
  rw [hsectors, ← Nat.add_assoc] at hroom hleaves
  have hdiv : (X.data.length + p.LEN) / SECTOR_SIZE = X.data.length / SECTOR_SIZE + 1 := by
    unfold SECTOR_SIZE at *
    unfold MAX_DATA_SIZE_BYTES at hlen
    omega
  have hmod : (X.data.length + p.LEN) % SECTOR_SIZE =
      X.current_sector_counter + p.LEN - SECTOR_SIZE := by
    unfold SECTOR_SIZE at *
    unfold MAX_DATA_SIZE_BYTES at hlen
    omega
  have hemmc : (X.spill p f).emmc = (emmc_write_blocks X.emmc
      (X.dfu_base_sector + 1 + X.data.length / SECTOR_SIZE) (X.filled p) f).2 := by
    rw [← hsector]
    rfl
  refine ⟨hfloor, ?_, ?_, ?_, fun hu => ?_, ?_, fun i hn hi => ?_, fun i hi => ?_⟩
  · show X.dfu_base_sector + (X.data ++ bytes_at p.DATA 0 p.LEN).length / SECTOR_SIZE < 2 ^ 32
    rw [hsz, hdiv]
    omega
  · show u32 (X.sectors_written + 1) = 1 + (X.data ++ bytes_at p.DATA 0 p.LEN).length / SECTOR_SIZE
    rw [hsz, hdiv, hsectors]
    have hbase : 0 < EMMC_FIRMWARE_FLOOR := by decide
    exact (Nat.mod_eq_of_lt (by omega)).trans (by omega)
  · show X.current_sector_counter + p.LEN - SECTOR_SIZE =
      (X.data ++ bytes_at p.DATA 0 p.LEN).length % SECTOR_SIZE
    rw [hsz, hmod]
  · dsimp only at hu ⊢
    simpa only [Dfu.spill, ne_eq, decide_not, Bool.not_eq_false', decide_eq_true_eq] using hu
  · show bytes_at ((X.spill p f).emmc X.dfu_base_sector) 0 _ = X.header
    rw [hemmc, emmc_write_blocks_of_ne (by omega)]
    exact h.header
  · show (X.spill p f).emmc (X.dfu_base_sector + 1 + i / SECTOR_SIZE) (i % SECTOR_SIZE) =
      (X.data ++ bytes_at p.DATA 0 p.LEN).getD i 0
    have hi : i / SECTOR_SIZE < (X.data ++ bytes_at p.DATA 0 p.LEN).length / SECTOR_SIZE := hi
    have himod : i % SECTOR_SIZE < SECTOR_SIZE := Nat.mod_lt _ (by decide)
    have hidm := Nat.div_add_mod i SECTOR_SIZE
    rw [hsz, hdiv] at hi
    rw [hemmc, getD_append_bytes]
    rcases Nat.lt_or_eq_of_le (Nat.le_of_lt_succ hi) with hi | hi
    · have hlt : i < X.data.length := by
        unfold SECTOR_SIZE at *
        omega
      rw [emmc_write_blocks_of_ne (by omega), if_pos hlt]
      exact h.image i hn hi
    · -- the sector that this packet fills
      rw [hi] at hidm
      rw [hi, Emmc.leaves_write (by omega) hleaves (by omega) himod, Dfu.filled, copy_bytes_apply]
      by_cases hold : i < X.data.length
      · rw [if_neg (by omega), if_pos hold, h.buffer _ (by omega), hidm]
      · rw [if_pos (by omega), if_neg hold, if_pos (by omega),
          show i % SECTOR_SIZE - X.current_sector_counter = i - X.data.length by omega]
  · dsimp only at hi ⊢
    rw [Dfu.spill_counter] at hi
    rw [hsz, hdiv, Nat.mul_succ, getD_append_bytes, Dfu.spill]
    dsimp only
    rw [copy_bytes_apply,
      if_pos ⟨Nat.zero_le i, by omega⟩, if_neg (by omega), if_pos (by omega)]
    have hidx : u32 (SECTOR_SIZE - X.current_sector_counter + (i - 0)) =
        SECTOR_SIZE * (X.data.length / SECTOR_SIZE) + SECTOR_SIZE + i - X.data.length := by
      unfold u32
      rw [Nat.mod_eq_of_lt (by unfold SECTOR_SIZE MAX_DATA_SIZE_BYTES at *; omega)]
      omega
    rw [hidx]

/-- A packet that leaves room in the sector goes to the buffer. -/
theorem part (h : Placed n X) (hpart : X.current_sector_counter + p.LEN < SECTOR_SIZE) :
    Placed n { X with
      unwritten_sector := true
      current_sector := copy_bytes X.current_sector X.current_sector_counter p.DATA p.LEN
      current_sector_counter := X.current_sector_counter + p.LEN
      data := X.data ++ bytes_at p.DATA 0 p.LEN } := by
  have hsz : (X.data ++ bytes_at p.DATA 0 p.LEN).length = X.data.length + p.LEN := by
    simp [bytes_at]
  have hcounter := h.counter
  have hdm := Nat.div_add_mod X.data.length SECTOR_SIZE
  rw [← hcounter] at hdm
  have hdiv : (X.data.length + p.LEN) / SECTOR_SIZE = X.data.length / SECTOR_SIZE := by
    unfold SECTOR_SIZE at *
    omega
  have hmod : (X.data.length + p.LEN) % SECTOR_SIZE = X.current_sector_counter + p.LEN := by
    unfold SECTOR_SIZE at *
    omega
  refine ⟨h.floor, ?_, ?_, ?_, fun hu => ?_, h.header, fun i hn hi => ?_, fun i hi => ?_⟩
  · show X.dfu_base_sector + (X.data ++ bytes_at p.DATA 0 p.LEN).length / SECTOR_SIZE < 2 ^ 32
    rw [hsz, hdiv]
    exact h.room
  · show X.sectors_written = 1 + (X.data ++ bytes_at p.DATA 0 p.LEN).length / SECTOR_SIZE
    rw [hsz, hdiv]
    exact h.sectors
  · show X.current_sector_counter + p.LEN = (X.data ++ bytes_at p.DATA 0 p.LEN).length % SECTOR_SIZE
    rw [hsz, hmod]
  · cases hu
  · show X.emmc (X.dfu_base_sector + 1 + i / SECTOR_SIZE) (i % SECTOR_SIZE) =
      (X.data ++ bytes_at p.DATA 0 p.LEN).getD i 0
    have hi : i / SECTOR_SIZE < (X.data ++ bytes_at p.DATA 0 p.LEN).length / SECTOR_SIZE := hi
    rw [hsz, hdiv] at hi
    have hlt : i < X.data.length := by
      unfold SECTOR_SIZE at *
      omega
    rw [getD_append_bytes, if_pos hlt]
    exact h.image i hn hi
  · show copy_bytes X.current_sector X.current_sector_counter p.DATA p.LEN i =
      (X.data ++ bytes_at p.DATA 0 p.LEN).getD
        (SECTOR_SIZE * ((X.data ++ bytes_at p.DATA 0 p.LEN).length / SECTOR_SIZE) + i) 0
    have hi : i < X.current_sector_counter + p.LEN := hi
    rw [hsz, hdiv, getD_append_bytes, copy_bytes_apply]
    by_cases hold : i < X.current_sector_counter
    · rw [if_neg (by omega), if_pos (by omega), h.buffer i hold]
    · rw [if_pos (by omega), if_neg (by omega), if_pos (by omega),
        show SECTOR_SIZE * (X.data.length / SECTOR_SIZE) + i - X.data.length =
          i - X.current_sector_counter by omega]

/-- A data packet. -/
theorem data (h : Placed n X) (hlen : p.LEN ≤ MAX_DATA_SIZE_BYTES)
    (hroom : SECTOR_SIZE ≤ X.current_sector_counter + p.LEN →
      X.dfu_base_sector + X.sectors_written < 2 ^ 32)
    (hleaves : SECTOR_SIZE ≤ X.current_sector_counter + p.LEN →
      X.emmc.leaves (X.dfu_base_sector + X.sectors_written) (X.filled p)
        (n - SECTOR_SIZE * (X.data.length / SECTOR_SIZE)) f) :
    Placed n (X.accept_data p f) := by
  obtain ⟨crc, m, heq⟩ := X.accept_data_eq p f
  rw [heq]
  by_cases hfull : SECTOR_SIZE ≤ X.current_sector_counter + p.LEN
  · have h' := h.spill hlen hfull (hroom hfull) (hleaves hfull)
    rw [Dfu.fill_full h.counter_lt hlen hfull]
    exact ⟨h'.floor, h'.room, h'.sectors, h'.counter, h'.pending, h'.header, h'.image, h'.buffer⟩
  · have h' := h.part (Nat.lt_of_not_le hfull)
    rw [Dfu.fill_part (Nat.lt_of_not_le hfull)]
    exact ⟨h'.floor, h'.room, h'.sectors, h'.counter, h'.pending, h'.header, h'.image, h'.buffer⟩

/-- The write of the last sector: the image is on the card, zeros behind it. -/
theorem flush (h : Placed n X)
    (hroom : X.unwritten_sector = true → X.dfu_base_sector + X.sectors_written < 2 ^ 32)
    (hleaves : X.unwritten_sector = true →
      X.emmc.leaves (X.dfu_base_sector + X.sectors_written) X.padded
        (n - SECTOR_SIZE * (X.data.length / SECTOR_SIZE)) f) :
    bytes_at ((X.flush f).emmc X.dfu_base_sector) 0 START_PACKET_SIZE = X.header ∧
      ∀ i, i < n → i / SECTOR_SIZE < (X.data.length + 511) / SECTOR_SIZE →
        (X.flush f).emmc (X.dfu_base_sector + 1 + i / SECTOR_SIZE) (i % SECTOR_SIZE) =
          X.data.getD i 0 := by
  have hfloor := h.floor
  have hcounter := h.counter
  have hpos := h.counter_lt
  have hdm := Nat.div_add_mod X.data.length SECTOR_SIZE
  have hq0 := Nat.zero_le (X.data.length / SECTOR_SIZE)
  rw [← hcounter] at hdm
  cases hu : X.unwritten_sector with
  | false =>
    have hflush : X.flush f = X := by
      unfold Dfu.flush
      rw [if_neg (by rw [hu]; exact Bool.false_ne_true)]
    rw [hflush]
    refine ⟨h.header, fun i hn hi => h.image i hn ?_⟩
    rw [h.pending hu] at hdm
    unfold SECTOR_SIZE at *
    omega
  | true =>
    have hroom := hroom hu
    have hleaves := hleaves hu
    have hsector := h.next_sector hroom
    rw [h.sectors, ← Nat.add_assoc] at hroom hleaves
    have hemmc : (X.flush f).emmc = (emmc_write_blocks X.emmc
        (X.dfu_base_sector + 1 + X.data.length / SECTOR_SIZE) X.padded f).2 := by
      unfold Dfu.flush
      rw [if_pos hu, ← hsector]
      rfl
    rw [hemmc]
    refine ⟨?_, fun i hn hi => ?_⟩
    · rw [emmc_write_blocks_of_ne (by omega)]
      exact h.header
    · have himod : i % SECTOR_SIZE < SECTOR_SIZE := Nat.mod_lt _ (by decide)
      have hidm := Nat.div_add_mod i SECTOR_SIZE
      have hle : i / SECTOR_SIZE ≤ X.data.length / SECTOR_SIZE := by
        unfold SECTOR_SIZE at *
        omega
      rcases Nat.lt_or_eq_of_le hle with hq | hq
      · rw [emmc_write_blocks_of_ne (by omega)]
        exact h.image i hn hq
      · rw [hq] at hidm
        rw [hq, Emmc.leaves_write (by omega) hleaves (by omega) himod, Dfu.padded, copy_bytes_apply]
        by_cases hold : i < X.data.length
        · rw [if_neg (by omega), h.buffer _ (by omega), hidm]
        · rw [if_pos (by omega), List.getD_eq_default _ _ (Nat.le_of_not_lt hold)]

end Placed

end Rpitos
