import Rpitos.Boot.DfuHash

/-!
# Boot.DfuStream

A whole transfer whose writes succeed. `dfu_stream`: the log is the header's sector and the ones behind
it, each once and in order, they hold the payloads with zeros behind them, and the CRC is that of the
payload up to the declared length. `dfu_hash_wraps`: the last holds only while the count of hashed bytes
stays below 2^32.
-/

namespace Rpitos

open Function StatusCode DfuState

/-- The bytes that data packets carry. -/
def payload (packets : List DFU_Packet) : List UInt8 :=
  packets.flatMap fun p => bytes_at p.DATA 0 p.LEN

/-- A start packet, data packets and a finish packet. -/
def transfer (start : DFU_Packet) (packets : List DFU_Packet) (finish : DFU_Packet) :
    List DfuAction :=
  .packet start none :: (packets.map (.packet · none) ++ [.packet finish none])

/-- `emmc_write_blocks` refuses no sector. -/
def Dfu.unrefused (X : Dfu) : DfuAction → Prop
  | .packet p _ =>
    p.CMD = CMD_DATA ∧ SECTOR_SIZE ≤ X.current_sector_counter + p.LEN ∨
        p.CMD = CMD_FINISH ∧ X.unwritten_sector = true →
      EMMC_FIRMWARE_FLOOR ≤ u32 (X.dfu_base_sector + X.sectors_written)
  | .commit _ => True

instance (X : Dfu) (a : DfuAction) : Decidable (X.unrefused a) :=
  match a with
  | .packet _ _ => inferInstanceAs (Decidable (_ → _))
  | .commit _ => isTrue trivial

instance (X : Dfu) (a : DfuAction) : Decidable (X.counts a) :=
  match a with
  | .packet _ _ => inferInstanceAs (Decidable (_ → _))
  | .commit _ => isTrue trivial

/-- No write is refused, and the count of the hashed bytes does not wrap. -/
def Dfu.streams (X : Dfu) (a : DfuAction) : Prop := X.unrefused a ∧ X.counts a

instance (X : Dfu) (a : DfuAction) : Decidable (X.streams a) := inferInstanceAs (Decidable (_ ∧ _))

/-- A data packet of a transfer. -/
def DFU_Packet.streamed (p : DFU_Packet) : Prop :=
  p.CMD = CMD_DATA ∧ p.LEN % 4 = 0 ∧ 4 ≤ p.LEN ∧ p.LEN ≤ MAX_DATA_SIZE_BYTES

theorem DFU_Packet.streamed_of_full {p : DFU_Packet} (hcmd : p.CMD = CMD_DATA)
    (hlen : p.LEN = MAX_DATA_SIZE_BYTES) : p.streamed := by
  unfold DFU_Packet.streamed
  rw [hlen]
  exact ⟨hcmd, by decide⟩

/-- The first `n` sectors from `base` on. -/
def sectors_from (base n : Nat) : List Nat := (List.range n).map (base + ·)

theorem sectors_from_succ (base n : Nat) :
    sectors_from base (n + 1) = sectors_from base n ++ [base + n] := by
  unfold sectors_from
  rw [List.range_succ, List.map_append, List.map_singleton]

/-- The first of them, and the rest. -/
theorem sectors_from_cons (base n : Nat) :
    sectors_from base (1 + n) = base :: sectors_from (base + 1) n := by
  unfold sectors_from
  rw [Nat.add_comm 1 n, List.range_succ_eq_map, List.map_cons, List.map_map]
  refine congrArg _ (List.map_congr_left fun i _ => ?_)
  show base + (i + 1) = base + 1 + i
  omega

/-- Between the packets of a transfer. -/
structure Streamed (X : Dfu) : Prop where
  placed : ∀ n, Placed n X
  state : X.state = DFU_STATE_RECIEVE_DATA
  /-- What is left to write is not empty. -/
  dirty : X.unwritten_sector = true → X.current_sector_counter ≠ 0
  log : X.written = sectors_from X.dfu_base_sector (1 + X.data.length / SECTOR_SIZE)

namespace Streamed

variable {X Y : Dfu} {p : DFU_Packet}

theorem open_session (h : Streamed X) : X.open_session = true := by
  unfold Dfu.open_session
  rw [h.state]
  rfl

/-- A write that is not refused does not wrap around. -/
theorem next_room (h : Streamed X)
    (hfloor : EMMC_FIRMWARE_FLOOR ≤ u32 (X.dfu_base_sector + X.sectors_written)) :
    X.dfu_base_sector + X.sectors_written < 2 ^ 32 := by
  have hroom := (h.placed 0).room
  have hsectors := (h.placed 0).sectors
  have hpos : 0 < EMMC_FIRMWARE_FLOOR := by decide
  rcases Nat.lt_or_eq_of_le (show X.dfu_base_sector + X.sectors_written ≤ 2 ^ 32 by omega) with hlt | heq
  · exact hlt
  · rw [heq] at hfloor
    exact absurd hfloor (by decide)

theorem next_floor (h : Streamed X) (hroom : X.dfu_base_sector + X.sectors_written < 2 ^ 32) :
    EMMC_FIRMWARE_FLOOR ≤ u32 (X.dfu_base_sector + X.sectors_written) := by
  rw [(h.placed 0).next_sector hroom]
  exact Nat.le_trans (h.placed 0).floor (Nat.le_trans (Nat.le_add_right _ 1) (Nat.le_add_right _ _))

/-- The start packet. -/
theorem start {base : Nat} (hbase : EMMC_FIRMWARE_FLOOR ≤ base ∧ base < 2 ^ 31) (hdata : X.data = [])
    (hunwritten : X.unwritten_sector = false) (hcounter : X.current_sector_counter = 0)
    (hwritten : X.written = []) (self : Bool) : Streamed (X.begin_session p base self none) where
  placed _ := .start hbase.1 (Nat.lt_trans hbase.2 (by decide)) hdata hcounter self (.inl rfl)
  state := rfl
  dirty hu := nomatch hunwritten.symm.trans hu
  log := by
    show (Dfu.write_sector _ base none).written = sectors_from base (1 + X.data.length / SECTOR_SIZE)
    rw [Dfu.write_sector_written _ hbase.1, hdata]
    show X.written ++ [base] = _
    rw [hwritten]
    rfl

/-- A data packet. -/
theorem data (h : Streamed X) (hp : p.streamed) (hok : X.unrefused (.packet p none)) :
    Streamed (X.accept_data p none) := by
  obtain ⟨hcmd, -, hmin, hmax⟩ := hp
  have hroom := fun hfull => h.next_room (hok (.inl ⟨hcmd, hfull⟩))
  have hplaced : ∀ n, Placed n (X.accept_data p none) :=
    fun n => (h.placed n).data hmax hroom fun _ => .inl rfl
  have hstate := h.state
  have hcounter := (h.placed 0).counter
  have hlt := (h.placed 0).counter_lt
  have hsz : (X.data ++ bytes_at p.DATA 0 p.LEN).length = X.data.length + p.LEN := by
    simp [bytes_at]
  obtain ⟨crc, m, heq⟩ := X.accept_data_eq p none
  rw [heq] at hplaced ⊢
  by_cases hfull : SECTOR_SIZE ≤ X.current_sector_counter + p.LEN
  · rw [Dfu.fill_full hlt hmax hfull] at hplaced ⊢
    have hdiv : (X.data.length + p.LEN) / SECTOR_SIZE = X.data.length / SECTOR_SIZE + 1 := by
      unfold SECTOR_SIZE at *
      unfold MAX_DATA_SIZE_BYTES at hmax
      omega
    refine ⟨hplaced, hstate, fun hu => ?_, ?_⟩
    · dsimp only at hu ⊢
      simpa only [Dfu.spill, ne_eq, decide_not, Bool.not_eq_eq_eq_not, Bool.not_true,
        decide_eq_false_iff_not] using hu
    · show (Dfu.write_sector _ (u32 (X.dfu_base_sector + X.sectors_written)) none).written =
        sectors_from X.dfu_base_sector
          (1 + (X.data ++ bytes_at p.DATA 0 p.LEN).length / SECTOR_SIZE)
      rw [Dfu.write_sector_written _ (hok (.inl ⟨hcmd, hfull⟩)), (h.placed 0).next_sector (hroom hfull),
        hsz, hdiv, ← Nat.add_assoc, sectors_from_succ, ← h.log, Nat.add_assoc X.dfu_base_sector]
  · rw [Dfu.fill_part (by omega)] at hplaced ⊢
    have hdiv : (X.data.length + p.LEN) / SECTOR_SIZE = X.data.length / SECTOR_SIZE := by
      unfold SECTOR_SIZE at *
      omega
    refine ⟨hplaced, hstate, fun _ => ?_, ?_⟩
    · show X.current_sector_counter + p.LEN ≠ 0
      omega
    · show X.written = sectors_from X.dfu_base_sector
        (1 + (X.data ++ bytes_at p.DATA 0 p.LEN).length / SECTOR_SIZE)
      rw [hsz, hdiv]
      exact h.log

theorem step_data (h : Streamed X) (hp : p.streamed) :
    X.step (.packet p none) = some (X.accept_data p none) := by
  obtain ⟨hcmd, hmod, -, -⟩ := hp
  have hhandle : X.handle p none = X.accept_data p none := by
    unfold Dfu.handle Dfu.receive_data
    rw [hcmd, if_neg (by decide), if_neg (by decide), if_pos rfl, if_neg (by omega), if_pos h.state]
  rw [Dfu.step_packet h.open_session, hhandle]

/-- What a data packet leaves alone, and what it appends. -/
theorem data_same (X : Dfu) (p : DFU_Packet) : (X.accept_data p none).header = X.header ∧
    (X.accept_data p none).dfu_base_sector = X.dfu_base_sector ∧
    (X.accept_data p none).img_length = X.img_length ∧
    (X.accept_data p none).img_expected_crc = X.img_expected_crc ∧
    (X.accept_data p none).data = X.data ++ payload [p] := by
  obtain ⟨crc, n, heq⟩ := X.accept_data_eq p none
  obtain ⟨_, _, _, _, _, _, hfill⟩ := X.fill_eq p none
  have hpayload : payload [p] = bytes_at p.DATA 0 p.LEN := List.append_nil _
  rw [hpayload, heq, hfill]
  exact ⟨rfl, rfl, rfl, rfl, rfl⟩

/-- The data packets of a transfer. -/
theorem packets (packets : List DFU_Packet) : ∀ X : Dfu, Streamed X → Hashed X →
    (∀ p ∈ packets, p.streamed) →
    execute Dfu.step Dfu.streams X (packets.map (.packet · none)) = some Y →
    Streamed Y ∧ Hashed Y ∧ Y.header = X.header ∧ Y.dfu_base_sector = X.dfu_base_sector ∧
      Y.data = X.data ++ payload packets := by
  induction packets with
  | nil =>
    intro X hs hh _ hrun
    cases hrun
    exact ⟨hs, hh, rfl, rfl, (List.append_nil _).symm⟩
  | cons p packets ih =>
    intro X hs hh hall hrun
    have hp := hall p (List.mem_cons_self ..)
    obtain ⟨⟨hok, hcounts⟩, X', hstep, hrest⟩ := execute_cons_some hrun
    have hh' := hh.step hcounts hstep
    rw [hs.step_data hp] at hstep
    cases hstep
    obtain ⟨hheader, hbase, -, -, hdata⟩ := data_same X p
    obtain ⟨hsY, hhY, hheaderY, hbaseY, hdataY⟩ :=
      ih _ (hs.data hp hok) hh' (fun q hq => hall q (List.mem_cons_of_mem _ hq)) hrest
    refine ⟨hsY, hhY, hheaderY.trans hheader, hbaseY.trans hbase, ?_⟩
    rw [hdataY, hdata, List.append_assoc]
    exact congrArg (X.data ++ ·) (@List.flatMap_append _ _ [p] packets _).symm

/-- The finish packet: all of the payload is in the log's sectors, and zeros behind it. -/
theorem finish (h : Streamed X) (hcmd : p.CMD = CMD_FINISH) (hok : X.unrefused (.packet p none)) :
    let sectors := (X.data.length + 511) / SECTOR_SIZE
    (X.flush none).written = sectors_from X.dfu_base_sector (1 + sectors) ∧
      (X.flush none).emmc.image (X.dfu_base_sector + 1) (SECTOR_SIZE * sectors) =
        X.data ++ List.replicate (SECTOR_SIZE * sectors - X.data.length) 0 := by
  intro sectors
  have hroom := fun hu => h.next_room (hok (.inr ⟨hcmd, hu⟩))
  have hcounter := (h.placed 0).counter
  refine ⟨?_, ?_⟩
  · unfold Dfu.flush
    split
    · rename_i hu
      have hdirty := h.dirty hu
      have hsectors : sectors = X.data.length / SECTOR_SIZE + 1 := by
        unfold sectors
        rw [hcounter] at hdirty
        unfold SECTOR_SIZE at *
        omega
      rw [Dfu.write_sector_written _ (hok (.inr ⟨hcmd, hu⟩)), (h.placed 0).next_sector (hroom hu),
        hsectors, ← Nat.add_assoc, sectors_from_succ, ← h.log, Nat.add_assoc X.dfu_base_sector]
    · rename_i hu
      have hclean := (h.placed 0).pending (by simpa using hu)
      have hsectors : sectors = X.data.length / SECTOR_SIZE := by
        unfold sectors
        rw [hcounter] at hclean
        unfold SECTOR_SIZE at *
        omega
      rw [hsectors]
      exact h.log
  · refine List.ext_getElem ?_ fun i hi hi' => ?_
    · simp only [Emmc.image, List.length_map, List.length_range, List.length_append,
        List.length_replicate]
      unfold sectors SECTOR_SIZE
      omega
    · have hi : i < SECTOR_SIZE * sectors := by simpa [Emmc.image] using hi
      have hbyte := ((h.placed (i + 1)).flush hroom fun _ => .inl rfl).2 i (Nat.lt_succ_self i)
        (Nat.div_lt_of_lt_mul hi)
      simp only [Emmc.image, List.getElem_map, List.getElem_range]
      rw [hbyte, ← List.getD_eq_getElem _ 0 hi']
      by_cases hin : i < X.data.length
      · rw [List.getD_append _ _ _ _ hin]
      · rw [List.getD_append_right _ _ _ _ (Nat.le_of_not_lt hin),
          List.getD_eq_default _ _ (Nat.le_of_not_lt hin), List.getD_replicate]
        omega

end Streamed

/-- The start packet of a transfer is accepted. -/
theorem Dfu.step_start (X : Dfu) (img_expected_crc crc_ctx : UInt32) {p : DFU_Packet}
    (hcmd : p.CMD = CMD_START ∨ p.CMD = CMD_START_SELF_UPDATE) (hlen : p.LEN = START_PACKET_SIZE) :
    let self := decide (p.CMD = CMD_START_SELF_UPDATE)
    (X.init img_expected_crc crc_ctx).step (.packet p none) =
      some ((X.init img_expected_crc crc_ctx).begin_session p (X.target self) self none) := by
  intro self
  rw [Dfu.step_packet rfl]
  unfold self Dfu.handle Dfu.start
  rcases hcmd with hcmd | hcmd
  · rw [hcmd, if_pos rfl, if_neg (by exact Bool.false_ne_true), if_neg (not_not.mpr hlen)]
    rfl
  · rw [hcmd, if_neg (by decide), if_pos rfl, if_neg (by exact Bool.false_ne_true),
      if_neg (not_not.mpr hlen)]
    rfl

/-- The session of a transfer, behind its start packet. -/
theorem Streamed.begun (X : Dfu) (img_expected_crc crc_ctx : UInt32) (p : DFU_Packet) (self : Bool) :
    Streamed ((X.init img_expected_crc crc_ctx).begin_session p (X.target self) self none) :=
  .start (X.target_room self) rfl rfl rfl rfl self

/-- A transfer whose writes succeed and whose hashed bytes are counted, up to a finish packet that finds
the CRC right: the sectors that were written, what they hold, and the CRC. -/
theorem dfu_stream (X Y : Dfu) (img_expected_crc crc_ctx : UInt32) (start finish : DFU_Packet)
    (packets : List DFU_Packet) (hcmd : start.CMD = CMD_START ∨ start.CMD = CMD_START_SELF_UPDATE)
    (hlen : start.LEN = START_PACKET_SIZE) (hpackets : ∀ p ∈ packets, p.streamed)
    (hfinish : finish.CMD = CMD_FINISH)
    (hrun : execute Dfu.step Dfu.streams (X.init img_expected_crc crc_ctx)
      (transfer start packets finish) = some Y) (hok : Y.state = finishing) :
    let base := X.target (start.CMD = CMD_START_SELF_UPDATE)
    let bytes := payload packets
    let sectors := (bytes.length + 511) / SECTOR_SIZE
    let fw_length := (StartPacket.of_buffer start.DATA).fw_length.toNat
    Y.written = base :: sectors_from (base + 1) sectors ∧
      Y.emmc.image (base + 1) (SECTOR_SIZE * sectors) =
        bytes ++ List.replicate (SECTOR_SIZE * sectors - bytes.length) 0 ∧
      crc32_finish Y.crc_ctx = crc32 (bytes.take (min bytes.length fw_length)) := by
  intro base bytes sectors fw_length
  obtain ⟨-, X₁, hstep, hrun⟩ := execute_cons_some hrun
  rw [X.step_start img_expected_crc crc_ctx hcmd hlen] at hstep
  cases hstep
  have hs₁ := Streamed.begun X img_expected_crc crc_ctx start (start.CMD = CMD_START_SELF_UPDATE)
  have hh₁ := @Hashed.begin_session _ start none base (Hashed.init X img_expected_crc crc_ctx)
    rfl (start.CMD = CMD_START_SELF_UPDATE)
  rw [execute_append] at hrun
  obtain ⟨X₂, hrun₂, hrun⟩ := Option.bind_eq_some_iff.mp hrun
  obtain ⟨hs₂, hh₂, hheader, hbase, hdata⟩ := Streamed.packets packets _ hs₁ hh₁ hpackets hrun₂
  have hdata : X₂.data = bytes := hdata
  have hbase : X₂.dfu_base_sector = base := hbase
  obtain ⟨⟨hfloor, -⟩, X₃, hstep, hrun⟩ := execute_cons_some hrun
  cases hrun
  have hhandle : X₂.handle finish none = X₂.finish none := by
    unfold Dfu.handle
    rw [hfinish, if_neg (by decide), if_neg (by decide), if_neg (by decide), if_neg (by decide),
      if_pos rfl]
  rw [Dfu.step_packet hs₂.open_session, hhandle] at hstep
  cases hstep
  have hflush : X₂.finish none = { X₂.flush none with state := finishing } := by
    unfold Dfu.finish at hok ⊢
    split
    · rename_i hne
      rw [if_pos hne] at hok
      exact nomatch hok
    · rfl
  obtain ⟨hwritten, himage⟩ := hs₂.finish hfinish hfloor
  rw [hdata, hbase] at hwritten himage
  rw [hflush]
  refine ⟨hwritten.trans (sectors_from_cons base _), himage, ?_⟩
  have hstarted := hh₂.started_of hs₂.state
  have hlength : X₂.img_length.toNat = fw_length := by
    rw [hh₂.length hstarted]
    unfold Dfu.start_pkt
    rw [hheader]
    rfl
  have hcrc : (X₂.flush none).crc_ctx = X₂.crc_ctx := by
    obtain ⟨_, _, _, heq⟩ := X₂.flush_eq none
    rw [heq]
  show crc32_finish (X₂.flush none).crc_ctx = _
  rw [hcrc, hh₂.crc hstarted, hdata, hlength, Nat.min_comm, ← List.take_eq_take_min]
  rfl

/-- The session has begun, and every write and every hashed byte of a stream of full packets has room. -/
theorem Streamed.stream {p : DFU_Packet} (hp : p.streamed) (n : Nat) : ∀ X : Dfu, Streamed X →
    Hashed X → X.dfu_base_sector + 1 + (X.data.length + p.LEN * n) / SECTOR_SIZE < 2 ^ 32 →
    X.data.length + p.LEN * n < 2 ^ 32 →
    ∃ Y, execute Dfu.step Dfu.streams X ((List.replicate n p).map (.packet · none)) = some Y := by
  induction n with
  | zero => exact fun X _ _ _ _ => ⟨X, rfl⟩
  | succ n ih =>
    intro X hs hh hroom hcount
    rw [Nat.mul_succ, Nat.add_comm _ p.LEN, ← Nat.add_assoc] at hroom hcount
    obtain ⟨hcmd, hmod, hmin, hmax⟩ := hp
    have hp : p.streamed := ⟨hcmd, hmod, hmin, hmax⟩
    have hstarted := hh.started_of hs.state
    have hhashed := hh.hashed hstarted
    have hcounts : X.counts (.packet p none) := fun _ _ _ => by omega
    have hok : X.unrefused (.packet p none) := by
      have hsectors := (hs.placed 0).sectors
      have hle : X.data.length / SECTOR_SIZE ≤ (X.data.length + p.LEN + p.LEN * n) / SECTOR_SIZE :=
        Nat.div_le_div_right (by omega)
      exact fun _ => hs.next_floor (by omega)
    have hstep := hs.step_data hp
    obtain ⟨-, hbase, -, -, hdata⟩ := Streamed.data_same X p
    have hlen : (X.accept_data p none).data.length = X.data.length + p.LEN := by
      rw [hdata, List.length_append]
      simp [payload, bytes_at]
    obtain ⟨Y, hrun⟩ := ih _ (hs.data hp hok) (hh.step hcounts hstep)
      (by rw [hbase, hlen]; exact hroom) (by rw [hlen]; exact hcount)
    refine ⟨Y, ?_⟩
    rw [List.replicate_succ, List.map_cons, execute, if_pos ⟨hok, hcounts⟩, hstep]
    exact hrun

/-- Zeros, but for the last byte. -/
def last_packet (b : UInt8) : DFU_Packet where
  CMD := CMD_DATA
  LEN := MAX_DATA_SIZE_BYTES
  DATA := fun i => if i = 255 then b else 0
  CRC := 0

theorem payload_zeros (n : Nat) : payload (List.replicate n (zero_packet CMD_DATA MAX_DATA_SIZE_BYTES)) =
    List.replicate (MAX_DATA_SIZE_BYTES * n) 0 := by
  induction n with
  | zero => rfl
  | succ n ih =>
    have hfirst : payload [zero_packet CMD_DATA MAX_DATA_SIZE_BYTES] =
        List.replicate MAX_DATA_SIZE_BYTES 0 := by decide +kernel
    rw [List.replicate_succ, Nat.mul_succ, Nat.add_comm, List.replicate_add, ← ih, ← hfirst]
    exact @List.flatMap_append _ _ [_] _ _

theorem payload_last (n : Nat) (b : UInt8) :
    payload (List.replicate n (zero_packet CMD_DATA MAX_DATA_SIZE_BYTES) ++ [last_packet b]) =
      List.replicate (MAX_DATA_SIZE_BYTES * n + 255) 0 ++ [b] := by
  have hlast : payload [last_packet b] = List.replicate 255 0 ++ [b] := by
    have hzeros : (List.range 255).map (fun i => (last_packet b).DATA (0 + i)) =
        List.replicate 255 0 := by
      refine List.eq_replicate_iff.mpr ⟨by simp, fun x hx => ?_⟩
      obtain ⟨i, hi, rfl⟩ := List.mem_map.mp hx
      have hi := List.mem_range.mp hi
      exact if_neg (by omega)
    refine (List.append_nil _).trans ?_
    show (List.range (255 + 1)).map (fun i => (last_packet b).DATA (0 + i)) = _
    rw [List.range_succ, List.map_append, hzeros]
    rfl
  rw [List.replicate_add, List.append_assoc, ← hlast, ← payload_zeros]
  exact List.flatMap_append

/-- The CRC of zeros, before it is finished. -/
def zeros_crc (n : Nat) : UInt32 := crc32_update crc32_start (List.replicate n 0)

/-- When the count wraps around, the packet is hashed to its end. -/
theorem Hashed.wraps {X : Dfu} {p : DFU_Packet} (h : Hashed X) (hstart : X.started = true)
    (hlen : X.data.length + p.LEN = 2 ^ 32) (hfw : X.data.length ≤ X.img_length.toNat) :
    (X.accept_data p none).crc_ctx = crc32_update crc32_start (X.data ++ payload [p]) := by
  have hhashed : X.bytes_hashed = X.data.length := by
    rw [h.hashed hstart]
    exact Nat.min_eq_left hfw
  have hto : X.to_hash p.LEN = p.LEN := by
    unfold Dfu.to_hash
    rw [hhashed, hlen, if_neg (by exact Nat.not_lt_zero _)]
  have hpayload : payload [p] = bytes_at p.DATA 0 p.LEN := List.append_nil _
  rw [(X.accept_data_hash p none).1, hto, h.crc hstart, List.take_of_length_le hfw,
    crc32_update_append, hpayload]

/-- The data packets of an image of 2^32 - 1 bytes and of one byte behind it: this byte is hashed too. -/
theorem zeros_hashed {n : Nat} (hn : MAX_DATA_SIZE_BYTES * (n + 1) = 2 ^ 32) {b : UInt8} {crc : UInt32}
    {start : DFU_Packet} (hstart : StartPacket.of_buffer start.DATA = ⟨1, 0xFFFFFFFF, crc⟩) :
    let packets := List.replicate n (zero_packet CMD_DATA MAX_DATA_SIZE_BYTES) ++ [last_packet b]
    let X := (dfu_blank.init 0 0).begin_session start (dfu_blank.target false) false none
    ∃ Y, execute Dfu.step Dfu.unrefused X (packets.map (.packet · none)) = some Y ∧ Streamed Y ∧
      Y.data = List.replicate (2 ^ 32 - 1) 0 ++ [b] ∧ Y.img_expected_crc = crc ∧
      Y.crc_ctx = crc32b (zeros_crc (2 ^ 32 - 1)) b := by
  intro packets X
  have hzero := DFU_Packet.streamed_of_full (p := zero_packet CMD_DATA MAX_DATA_SIZE_BYTES) rfl rfl
  have hlast := DFU_Packet.streamed_of_full (p := last_packet b) rfl rfl
  have hbase := dfu_blank.target_room false
  have hs₁ : Streamed X := .begun dfu_blank 0 0 start false
  have hh₁ : Hashed X := (Hashed.init dfu_blank 0 0).begin_session rfl false
  -- all packets but the last
  obtain ⟨Y, hrun⟩ := Streamed.stream hzero n X hs₁ hh₁
    (by
      show dfu_blank.target false + 1 + (0 + MAX_DATA_SIZE_BYTES * n) / SECTOR_SIZE < 2 ^ 32
      unfold SECTOR_SIZE MAX_DATA_SIZE_BYTES at *
      omega)
    (by
      show 0 + MAX_DATA_SIZE_BYTES * n < 2 ^ 32
      unfold MAX_DATA_SIZE_BYTES at *
      omega)
  obtain ⟨hs, hh, hheader, hbaseY, hdata⟩ := Streamed.packets _ X hs₁ hh₁
    (fun p hp => List.eq_of_mem_replicate hp ▸ hzero) hrun
  have hbaseY : Y.dfu_base_sector = dfu_blank.target false := hbaseY
  have hdata : Y.data = payload (List.replicate n (zero_packet CMD_DATA MAX_DATA_SIZE_BYTES)) := hdata
  have hstarted := hh.started_of hs.state
  have hpkt : Y.start_pkt = ⟨1, 0xFFFFFFFF, crc⟩ := by
    unfold Dfu.start_pkt
    rw [hheader, ← hstart]
    rfl
  have hlen : Y.data.length + MAX_DATA_SIZE_BYTES = 2 ^ 32 := by
    rw [hdata, payload_zeros, List.length_replicate]
    exact hn
  have hfw : Y.data.length ≤ Y.img_length.toNat := by
    rw [hh.length hstarted, hpkt, show (0xFFFFFFFF : UInt32).toNat = 2 ^ 32 - 1 from rfl]
    unfold MAX_DATA_SIZE_BYTES at hlen
    omega
  -- the last packet
  have hroom : Y.dfu_base_sector + Y.sectors_written < 2 ^ 32 := by
    have hsectors := (hs.placed 0).sectors
    unfold SECTOR_SIZE at hsectors
    unfold MAX_DATA_SIZE_BYTES at hlen
    omega
  have hok : Y.unrefused (.packet (last_packet b) none) := fun _ => hs.next_floor hroom
  have hstep := hs.step_data hlast
  obtain ⟨-, -, -, hexpected, hbytes⟩ := Streamed.data_same Y (last_packet b)
  have hall : Y.data ++ payload [last_packet b] = List.replicate (2 ^ 32 - 1) 0 ++ [b] := by
    rw [hdata, show 2 ^ 32 - 1 = MAX_DATA_SIZE_BYTES * n + 255 by
      unfold MAX_DATA_SIZE_BYTES at *; omega, ← payload_last]
    exact List.flatMap_append.symm
  refine ⟨Y.accept_data (last_packet b) none, ?_, hs.data hlast hok, hbytes.trans hall, ?_, ?_⟩
  · rw [List.map_append, execute_append, execute_mono (fun _ _ h => h.1) _ hrun]
    show execute Dfu.step Dfu.unrefused Y [.packet (last_packet b) none] = _
    rw [execute, if_pos hok, hstep]
    rfl
  · rw [hexpected, hh.expected hstarted, hpkt]
  · rw [hh.wraps hstarted hlen hfw, hall, ← crc32_update_append]
    rfl

/-- A finish packet between two sectors, with the right CRC. -/
theorem Streamed.finish_step {X : Dfu} {p : DFU_Packet} (h : Streamed X) (hcmd : p.CMD = CMD_FINISH)
    (hmod : X.data.length % SECTOR_SIZE = 0) (hcrc : crc32_finish X.crc_ctx = X.img_expected_crc) :
    execute Dfu.step Dfu.unrefused X [.packet p none] = some { X with state := finishing } := by
  have hclean : ¬X.unwritten_sector = true := fun hu =>
    h.dirty hu ((h.placed 0).counter.trans hmod)
  have hok : X.unrefused (.packet p none) := by
    rintro (⟨hdata, -⟩ | ⟨-, hu⟩)
    · rw [hcmd] at hdata
      exact absurd hdata (by decide)
    · exact (hclean hu).elim
  have hhandle : X.handle p none = { X with state := finishing } := by
    unfold Dfu.handle Dfu.finish Dfu.flush
    rw [hcmd, if_neg (by decide), if_neg (by decide), if_neg (by decide), if_neg (by decide),
      if_pos rfl, if_neg (not_not.mpr hcrc), if_neg hclean]
  rw [execute, if_pos hok, Dfu.step_packet h.open_session, hhandle]
  rfl

/-- A byte that changes the CRC. -/
def changing_byte (crc : UInt32) : UInt8 := if crc32b crc 0 = crc then 1 else 0

theorem changing_byte_ne (crc : UInt32) : crc32b crc (changing_byte crc) ≠ crc := by
  unfold changing_byte
  split
  · rename_i h
    intro h'
    exact absurd (crc32b_injective (h'.trans h.symm)) (by decide)
  · rename_i h
    exact h

/-- The CRC behind `n` zeros, before it is finished. -/
theorem crc32_zeros (n : Nat) : crc32 (List.replicate n 0) = crc32_finish (zeros_crc n) := rfl

/-- `n` packets of zeros and a last one, with any byte at its end. -/
def zeros_packets (n : Nat) (b : UInt8) : List DFU_Packet :=
  List.replicate n (zero_packet CMD_DATA MAX_DATA_SIZE_BYTES) ++ [last_packet b]

theorem zeros_packets_streamed (n : Nat) (b : UInt8) : ∀ p ∈ zeros_packets n b, p.streamed := by
  intro p hp
  rcases List.mem_append.mp hp with hp | hp
  · rw [List.eq_of_mem_replicate hp]
    exact DFU_Packet.streamed_of_full rfl rfl
  · rw [List.mem_singleton.mp hp]
    exact DFU_Packet.streamed_of_full rfl rfl

theorem zeros_transfer_run {n : Nat} (hn : MAX_DATA_SIZE_BYTES * (n + 1) = 2 ^ 32) {b : UInt8}
    {start : DFU_Packet} (hcmd : start.CMD = CMD_START) (hlen : start.LEN = START_PACKET_SIZE)
    (hstart : StartPacket.of_buffer start.DATA =
      ⟨1, 0xFFFFFFFF, crc32_finish (crc32b (zeros_crc (2 ^ 32 - 1)) b)⟩) :
    ∃ Y, execute Dfu.step Dfu.unrefused (dfu_blank.init 0 0)
        (transfer start (zeros_packets n b) (zero_packet CMD_FINISH 1)) = some Y ∧
      Y.state = finishing ∧ Y.crc_ctx = crc32b (zeros_crc (2 ^ 32 - 1)) b := by
  obtain ⟨Y, hrun, hs, hdata, hexpected, hcrc⟩ := zeros_hashed hn (b := b) hstart
  have hmod : Y.data.length % SECTOR_SIZE = 0 := by
    rw [hdata, List.length_append, List.length_replicate, List.length_singleton]
    decide
  have hfinish := hs.finish_step (p := zero_packet CMD_FINISH 1) rfl hmod (by rw [hcrc, hexpected])
  have hstep := dfu_blank.step_start 0 0 (.inl hcmd) hlen
  have hself : decide (start.CMD = CMD_START_SELF_UPDATE) = false := by
    rw [hcmd]
    rfl
  have hfirst : (dfu_blank.init 0 0).unrefused (.packet start none) := by
    rintro (⟨h, -⟩ | ⟨h, -⟩) <;> exact absurd (hcmd.symm.trans h) (by decide)
  rw [hself] at hstep
  refine ⟨{ Y with state := finishing }, ?_, rfl, hcrc⟩
  rw [transfer, execute, if_pos hfirst, hstep]
  dsimp only
  rw [execute_append, zeros_packets, hrun]
  exact hfinish

theorem zeros_payload {n : Nat} (hn : MAX_DATA_SIZE_BYTES * (n + 1) = 2 ^ 32) (b : UInt8) :
    let bytes := payload (zeros_packets n b)
    bytes.take (min bytes.length (0xFFFFFFFF : UInt32).toNat) = List.replicate (2 ^ 32 - 1) 0 := by
  have hsize : MAX_DATA_SIZE_BYTES * n + 255 = 2 ^ 32 - 1 := by
    unfold MAX_DATA_SIZE_BYTES at *
    omega
  have hmax : (0xFFFFFFFF : UInt32).toNat = 2 ^ 32 - 1 := rfl
  unfold zeros_packets
  dsimp only
  rw [payload_last, hsize, hmax, List.length_append, List.length_replicate,
    Nat.min_eq_right (Nat.le_add_right _ _)]
  exact List.take_left' List.length_replicate

/-- The header of an image of 2^32 - 1 zeros, with the CRC of these zeros and one byte more. -/
def zeros_start : DFU_Packet where
  CMD := CMD_START
  LEN := START_PACKET_SIZE
  DATA := buffer_of ([1, 0xFFFFFFFF, crc32_finish (crc32b (zeros_crc (2 ^ 32 - 1))
    (changing_byte (zeros_crc (2 ^ 32 - 1))))].flatMap word_bytes)
  CRC := 0

/-- The finish packet finds this CRC, which is not that of the image. -/
theorem dfu_hash_wraps_of {n : Nat} (hn : MAX_DATA_SIZE_BYTES * (n + 1) = 2 ^ 32) :
    let packets := zeros_packets n (changing_byte (zeros_crc (2 ^ 32 - 1)))
    (∀ p ∈ packets, p.streamed) ∧
      ∃ Y, execute Dfu.step Dfu.unrefused (dfu_blank.init 0 0)
          (transfer zeros_start packets (zero_packet CMD_FINISH 1)) = some Y ∧
        Y.state = finishing ∧
        crc32_finish Y.crc_ctx ≠ crc32 ((payload packets).take (min (payload packets).length
          (StartPacket.of_buffer zeros_start.DATA).fw_length.toNat)) := by
  intro packets
  have hhdr := StartPacket.of_words 1 0xFFFFFFFF (crc32_finish (crc32b (zeros_crc (2 ^ 32 - 1))
    (changing_byte (zeros_crc (2 ^ 32 - 1)))))
  obtain ⟨Y, hrun, hstate, hcrc⟩ := @zeros_transfer_run n hn _ zeros_start rfl rfl hhdr
  refine ⟨zeros_packets_streamed n _, Y, hrun, hstate, ?_⟩
  rw [show StartPacket.of_buffer zeros_start.DATA = _ from hhdr, hcrc]
  dsimp only
  rw [zeros_payload hn, crc32_zeros]
  exact fun heq => changing_byte_ne _ ((UInt32.xor_left_inj _).mp heq)

theorem dfu_hash_wraps :
    let packets := zeros_packets 16777215 (changing_byte (zeros_crc (2 ^ 32 - 1)))
    (∀ p ∈ packets, p.streamed) ∧
      ∃ Y, execute Dfu.step Dfu.unrefused (dfu_blank.init 0 0)
          (transfer zeros_start packets (zero_packet CMD_FINISH 1)) = some Y ∧
        Y.state = finishing ∧
        crc32_finish Y.crc_ctx ≠ crc32 ((payload packets).take (min (payload packets).length
          (StartPacket.of_buffer zeros_start.DATA).fw_length.toNat)) :=
  dfu_hash_wraps_of rfl

/-- The update with an image of one byte and the marker behind it, up to its finish packet. -/
theorem dfu_stream_one_byte :
    ∃ Y, execute Dfu.step Dfu.streams (dfu_fresh.init 0 0)
        (transfer one_byte_start [one_byte_data] (zero_packet CMD_FINISH 1)) = some Y ∧
      Y.written = [EMMC_SECTOR_APP_B, EMMC_SECTOR_APP_B + 1] ∧
      crc32_finish Y.crc_ctx = crc32 [0] := by
  have hstate : (execute Dfu.step Dfu.streams (dfu_fresh.init 0 0)
      (transfer one_byte_start [one_byte_data] (zero_packet CMD_FINISH 1))).map Dfu.state =
        some finishing := by
    decide +kernel
  obtain ⟨Y, hrun, hstate⟩ := Option.map_eq_some_iff.mp hstate
  have hstreamed : ∀ p ∈ [one_byte_data], p.streamed := by
    intro p hp
    rw [List.mem_singleton.mp hp]
    unfold DFU_Packet.streamed
    decide
  have hbytes : (payload [one_byte_data]).take (min (payload [one_byte_data]).length
      (StartPacket.of_buffer one_byte_start.DATA).fw_length.toNat) = [0] := by
    decide +kernel
  obtain ⟨hwritten, -, hcrc⟩ := dfu_stream dfu_fresh _ 0 0 one_byte_start (zero_packet CMD_FINISH 1)
    [one_byte_data] (.inl rfl) rfl hstreamed rfl hrun hstate
  rw [hbytes] at hcrc
  exact ⟨Y, hrun, hwritten.trans (by decide +kernel), hcrc⟩

end Rpitos
