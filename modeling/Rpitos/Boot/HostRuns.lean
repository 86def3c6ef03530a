import Rpitos.Boot.HostTool
import Rpitos.Boot.DfuHash

/-!
# Boot.HostRuns

The host tool against the device. `Receiving`: what holds behind the start packet and some of the data
packets. `flash_updates`: every packet of `flash` is acknowledged, the other slot then holds the
header and the padded image and is valid, and it becomes active exactly if the marker is in place.
-/

namespace Rpitos

open Function StatusCode DfuState

/-- Behind the start packet, with these image bytes sent so far and so many answers. -/
structure Receiving (X₀ : Dfu) (img sent : List UInt8) (tx : List UInt8) (R : DfuReceive) : Prop where
  pc : R.pc = .packet .START
  stored : Stored X₀ R.dfu
  state : R.dfu.state = DFU_STATE_RECIEVE_DATA
  self : R.dfu.is_self_update = false
  data : R.dfu.data = sent
  header : R.dfu.header = start_packet img
  length : R.dfu.img_length.toNat = img.length
  expected : R.dfu.img_expected_crc = crc32 img
  hashed : R.dfu.bytes_hashed = min sent.length img.length
  crc : R.dfu.crc_ctx = crc32_update crc32_start (sent.take img.length)
  metadata : R.dfu.emmc EMMC_SECTOR_METADATA = X₀.emmc EMMC_SECTOR_METADATA
  answers : R.dfu.tx = tx

/-- The slot holds the header and the image, zeros behind it up to the end of its last sector. -/
structure Emmc.HoldsImage (E : Emmc) (sector : Nat) (img : List UInt8) : Prop where
  header : bytes_at (E sector) 0 START_PACKET_SIZE = start_packet img
  image : ∀ i, i / SECTOR_SIZE < (img.length + 511) / SECTOR_SIZE →
    E (sector + 1 + i / SECTOR_SIZE) (i % SECTOR_SIZE) = img.getD i 0

/-- The word at the marker's offset, in the padded image. -/
def marker (img : List UInt8) : UInt32 := word_at (buffer_of img) DFU_APP_MARKER_OFFSET

namespace Receiving

variable {X₀ : Dfu} {img sent tx chunk : List UInt8} {R : DfuReceive}

theorem base (h : Receiving X₀ img sent tx R) :
    R.dfu.dfu_base_sector = APP_SLOT_TO_SECTOR X₀.new_slot := by
  rw [h.stored.session.base (h.stored.session.started_of h.state), h.self]
  rfl

/-- No image byte goes to the metadata. -/
theorem next_ne_metadata (h : Receiving X₀ img sent tx R) :
    EMMC_SECTOR_METADATA ≠ u32 (R.dfu.dfu_base_sector + R.dfu.sectors_written) := by
  have hslot := APP_SLOT_TO_SECTOR_metadata X₀.new_slot
  rw [h.stored.session.next_sector (h.stored.session.started_of h.state), h.base]
  refine Nat.ne_of_lt (Nat.lt_of_lt_of_le hslot ?_)
  exact Nat.le_trans (Nat.le_add_right _ 1) (Nat.le_add_right _ _)

/-- A data packet. -/
theorem data_packet (h : Receiving X₀ img sent tx R) (hmax : img.length ≤ 65535)
    (hsent : sent.length + chunk.length < 2 ^ 24) (hpos : 0 < chunk.length)
    (hlen : chunk.length ≤ MAX_CHUNK) (hdvd : chunk.length % 4 = 0) :
    Receiving X₀ img (sent ++ chunk) (tx ++ [DFU_ACK])
      (R.feed_bytes (build_packet CMD_DATA chunk)) := by
  obtain ⟨p, hfeed, hcmd, hLEN, hbytes⟩ := DfuReceive.feed_build_packet h.pc
    (by decide : CMD_REQ ≤ CMD_DATA ∧ CMD_DATA < NUM_CMDS) (List.length_pos_iff.mp hpos)
    (Nat.le_trans hlen (by decide))
  have hhandle : R.dfu.handle p none = R.dfu.accept_data p none := by
    unfold Dfu.handle Dfu.receive_data
    rw [hcmd, hLEN, if_neg (by decide), if_neg (by decide), if_pos rfl, if_neg (by omega),
      if_pos h.state]
  have hbound : sent.length = R.dfu.data.length := by rw [h.data]
  have hsession : Session X₀ (R.dfu.accept_data p none) := by
    refine h.stored.session.data h.state (by rw [hLEN]; exact hlen) ?_
    have hroom := X₀.target_room R.dfu.is_self_update
    rw [← h.stored.session.base (h.stored.session.started_of h.state)] at hroom
    rw [hLEN, ← hbound]
    have hdiv := Nat.div_le_self (sent.length + chunk.length) SECTOR_SIZE
    omega
  have hstored : Stored X₀ (R.dfu.accept_data p none) :=
    h.stored.data h.state hsession (by rw [hLEN]; exact hlen) fun _ _ => .inl rfl
  obtain ⟨hcrc, hhashed⟩ := R.dfu.accept_data_hash p none
  have hto : R.dfu.to_hash p.LEN = min chunk.length (img.length - sent.length) := by
    unfold MAX_CHUNK at hlen
    rw [Dfu.to_hash_eq (by rw [h.hashed, hLEN]; omega) (by rw [h.hashed, h.length]; omega), hLEN,
      h.length, h.hashed]
    omega
  obtain ⟨crc, n, haccept⟩ := R.dfu.accept_data_eq p none
  obtain ⟨_, _, _, _, _, _, hfill⟩ := R.dfu.fill_eq p none
  rw [hfill] at haccept
  have hstate : (R.dfu.accept_data p none).state = DFU_STATE_RECIEVE_DATA := by
    rw [haccept]
    exact h.state
  have hreceive : R.receive p =
      { dfu := R.dfu.accept_data p none, packet := p, pc := .packet .START } := by
    unfold DfuReceive.receive
    rw [hhandle]
    dsimp only
    rw [if_neg (by rw [hstate]; exact DfuState.noConfusion)]
    unfold DfuReceive.after_packet
    rw [hstate]
    rfl
  have hdata : (R.dfu.accept_data p none).data = sent ++ chunk := by
    rw [haccept, ← h.data, ← hbytes, ← hLEN]
  rw [hfeed, hreceive]
  refine ⟨rfl, hstored, hstate, ?_, hdata, ?_, ?_, ?_, ?_, ?_,
    (Dfu.accept_data_emmc_of_ne h.next_ne_metadata).trans h.metadata, ?_⟩
  · show (R.dfu.accept_data p none).is_self_update = false
    rw [haccept]
    exact h.self
  · show (R.dfu.accept_data p none).header = _
    rw [haccept]
    exact h.header
  · show (R.dfu.accept_data p none).img_length.toNat = _
    rw [haccept]
    exact h.length
  · show (R.dfu.accept_data p none).img_expected_crc = _
    rw [haccept]
    exact h.expected
  · show (R.dfu.accept_data p none).bytes_hashed = _
    rw [hhashed (by rw [hto, h.hashed]; omega), hto, h.hashed, List.length_append]
    omega
  · show (R.dfu.accept_data p none).crc_ctx = _
    rw [hcrc, hto, h.crc, crc32_update_append, bytes_at_take _ (Nat.min_le_left _ _), hbytes,
      List.take_append, Nat.min_comm, ← List.take_eq_take_min]
  · show (R.dfu.accept_data p none).tx = _
    rw [haccept, h.answers]

/-- Data packets, one behind the other. -/
theorem data_packets (hmax : img.length ≤ 65535) (chunks : List (List UInt8)) :
    ∀ sent tx (R : DfuReceive), Receiving X₀ img sent tx R →
      sent.length + chunks.flatten.length < 2 ^ 24 →
      (∀ c ∈ chunks, 0 < c.length ∧ c.length ≤ MAX_CHUNK ∧ c.length % 4 = 0) →
      Receiving X₀ img (sent ++ chunks.flatten) (tx ++ List.replicate chunks.length DFU_ACK)
        (R.feed_bytes (chunks.map (build_packet CMD_DATA)).flatten) := by
  induction chunks with
  | nil =>
    intro sent tx R h _ _
    rw [List.flatten_nil, List.append_nil, List.length_nil, List.replicate_zero, List.append_nil]
    exact h
  | cons c chunks ih =>
    intro sent tx R h hsent hsize
    rw [List.flatten_cons, List.length_append] at hsent
    obtain ⟨hpos, hlen, hdvd⟩ := hsize c (List.mem_cons_self ..)
    have hfirst := h.data_packet hmax (by omega) hpos hlen hdvd
    have hrest := ih (sent ++ c) (tx ++ [DFU_ACK]) _ hfirst
      (by rw [List.length_append]; omega) fun c hc => hsize c (List.mem_cons_of_mem _ hc)
    rw [List.map_cons, List.flatten_cons, List.flatten_cons, DfuReceive.feed_bytes_append,
      ← List.append_assoc, List.length_cons, List.replicate_succ, List.append_cons]
    exact hrest

end Receiving

section Start

variable (X : Dfu) (img_expected_crc crc_ctx : UInt32) (packet : DFU_Packet)

/-- The trigger key is acknowledged. -/
theorem feed_trigger : (DfuReceive.enter X img_expected_crc crc_ctx packet).feed_bytes TRIGGER_KEY =
    { dfu := (X.init img_expected_crc crc_ctx).answer DFU_ACK, packet := packet,
      pc := .packet .START } := rfl

theorem start_packet_length (img : List UInt8) : (start_packet img).length = START_PACKET_SIZE := rfl

/-- The header words, as the device reads them. -/
theorem of_buffer_start_packet {buf : Sector} {img : List UInt8}
    (h : bytes_at buf 0 START_PACKET_SIZE = start_packet img) :
    StartPacket.of_buffer buf = ⟨1, UInt32.ofNat img.length, zlib_crc32 img⟩ := by
  have hbyte : ∀ i, i < START_PACKET_SIZE → buf i = buffer_of (start_packet img) i := by
    intro i hi
    have hget : (bytes_at buf 0 START_PACKET_SIZE).getD i 0 = buf i := by
      have hlen : i < (bytes_at buf 0 START_PACKET_SIZE).length := by
        rw [h, start_packet_length]
        exact hi
      rw [List.getD_eq_getElem _ _ hlen]
      simp only [bytes_at, List.getElem_map, List.getElem_range, Nat.zero_add]
    rw [← hget, h]
    rfl
  have hword : ∀ k, k < 3 → word_at buf (4 * k) =
      [1, UInt32.ofNat img.length, zlib_crc32 img].getD k 0 := by
    intro k hk
    rw [← word_at_words]
    unfold word_at
    unfold START_PACKET_SIZE at hbyte
    rw [hbyte _ (by omega), hbyte _ (by omega), hbyte _ (by omega), hbyte _ (by omega)]
    rfl
  unfold StartPacket.of_buffer
  rw [hword 0 (by decide), hword 1 (by decide), hword 2 (by decide)]
  rfl

/-- The start packet is acknowledged. -/
theorem feed_start {img : List UInt8} (hmax : img.length ≤ 65535) :
    Receiving (X.init img_expected_crc crc_ctx) img [] (X.tx ++ [DFU_ACK, DFU_ACK])
      ((DfuReceive.enter X img_expected_crc crc_ctx packet).feed_bytes
        (TRIGGER_KEY ++ build_packet CMD_START (start_packet img))) := by
  rw [DfuReceive.feed_bytes_append, feed_trigger]
  let R : DfuReceive := { dfu := (X.init img_expected_crc crc_ctx).answer DFU_ACK
                          packet := packet, pc := .packet .START }
  have hne : start_packet img ≠ [] := List.cons_ne_nil _ _
  obtain ⟨p, hfeed, hcmd, hLEN, hbytes⟩ := DfuReceive.feed_build_packet (R := R) rfl
    (by decide : CMD_REQ ≤ CMD_START ∧ CMD_START < NUM_CMDS) hne
    (by rw [start_packet_length]; decide)
  rw [start_packet_length] at hLEN hbytes
  have hwords := of_buffer_start_packet hbytes
  have hstored : Stored (X.init img_expected_crc crc_ctx) R.dfu :=
    (Stored.init X img_expected_crc crc_ctx).answer DFU_ACK
  have hbegun := hstored.start (p := p) (f := none) rfl rfl (.inl rfl)
  have hhandle : R.dfu.handle p none =
      R.dfu.begin_session p (APP_SLOT_TO_SECTOR R.dfu.new_slot) false none := by
    unfold Dfu.handle Dfu.start
    rw [hcmd, if_pos rfl, if_neg (by exact Bool.false_ne_true), if_neg (not_not.mpr hLEN)]
    rfl
  have hreceive : R.receive p =
      { dfu := R.dfu.begin_session p (APP_SLOT_TO_SECTOR R.dfu.new_slot) false none
        packet := p, pc := .packet .START } := by
    unfold DfuReceive.receive
    rw [hhandle]
    rfl
  rw [hfeed, hreceive]
  have hlength : (StartPacket.of_buffer p.DATA).fw_length.toNat = img.length := by
    rw [hwords]
    exact UInt32.toNat_ofNat_of_lt' (by unfold UInt32.size; omega)
  refine ⟨rfl, hbegun, rfl, rfl, rfl, hbytes, hlength, ?_, ?_, ?_, ?_, ?_⟩
  · show (StartPacket.of_buffer p.DATA).crc = _
    rw [hwords, ← zlib_crc32_eq]
  · exact (Nat.zero_min _).symm
  · rw [List.take_nil]
    rfl
  · refine (Dfu.write_sector_emmc_of_ne ?_).trans rfl
    exact Nat.ne_of_lt (APP_SLOT_TO_SECTOR_metadata _)
  · show (X.tx ++ [DFU_ACK]) ++ [DFU_ACK] = _
    rw [List.append_assoc]
    rfl

end Start

section Finish

variable {X₀ X : Dfu} {img sent tx : List UInt8} {R : DfuReceive}

/-- A slot that holds an image is valid. -/
theorem Emmc.HoldsImage.valid {E : Emmc} {sector : Nat} (h : E.HoldsImage sector img)
    (hpos : 0 < img.length) (hmax : img.length ≤ 65535) : E.ValidApp sector := by
  have hwords := of_buffer_start_packet h.header
  have hlength : (UInt32.ofNat img.length).toNat = img.length :=
    UInt32.toNat_ofNat_of_lt' (by unfold UInt32.size; omega)
  have himage : E.image (sector + 1) img.length = img.take img.length := by
    refine Emmc.image_eq_take (fun i hi => h.image i ?_) (Nat.le_refl _)
    unfold SECTOR_SIZE
    omega
  unfold Emmc.ValidApp
  rw [hwords]
  dsimp only
  refine ⟨rfl, fun h0 => ?_, ?_⟩
  · rw [h0] at hlength
    exact absurd hlength (Nat.ne_of_lt hpos)
  · rw [hlength, himage, List.take_length, zlib_crc32_eq]

/-- The marker is in the first sector of the image. -/
theorem Emmc.HoldsImage.marker {E : Emmc} {sector : Nat} (h : E.HoldsImage sector img)
    (hpos : 0 < img.length) :
    word_at (E (sector + 1)) DFU_APP_MARKER_OFFSET = marker img := by
  have hbyte : ∀ i, i < SECTOR_SIZE → E (sector + 1) i = buffer_of img i := by
    intro i hi
    have himage := h.image i (by rw [Nat.div_eq_of_lt hi]; unfold SECTOR_SIZE; omega)
    rw [Nat.div_eq_of_lt hi, Nat.mod_eq_of_lt hi] at himage
    exact himage
  unfold Rpitos.marker word_at
  rw [hbyte _ (by decide), hbyte _ (by decide), hbyte _ (by decide), hbyte _ (by decide)]

/-- Sectors before the slot do not matter. -/
theorem Emmc.HoldsImage.mono {E E' : Emmc} {sector : Nat} (h : E.HoldsImage sector img)
    (hsame : ∀ s, sector ≤ s → E' s = E s) : E'.HoldsImage sector img where
  header := by
    rw [hsame sector (Nat.le_refl _)]
    exact h.header
  image i hi := by
    rw [hsame _ (Nat.le_trans (Nat.le_add_right _ 1) (Nat.le_add_right _ _))]
    exact h.image i hi

/-- The write of the last sector: the slot holds the image. -/
theorem Receiving.flushed (h : Receiving X₀ img (pad img) tx R) :
    (R.dfu.flush none).emmc.HoldsImage (APP_SLOT_TO_SECTOR X₀.new_slot) img := by
  have happ : R.dfu.app := ⟨h.stored.session.started_of h.state, h.self⟩
  obtain ⟨-, hle, -⟩ := pad_length img
  have hflush := fun n => (h.stored.placed happ n).flush (f := none)
    (fun _ => h.stored.next_room happ) fun _ => .inl rfl
  rw [h.base, h.header, h.data] at hflush
  refine ⟨(hflush 0).1, fun i hi => ?_⟩
  rw [← pad_getD]
  refine (hflush (i + 1)).2 i (Nat.lt_succ_self i) (Nat.lt_of_lt_of_le hi ?_)
  exact Nat.div_le_div_right (by omega)

/-- `CMD_FINISH`, when it has written the last sector. -/
def Dfu.finished (X : Dfu) : Dfu := { X.flush none with state := finishing }

theorem Dfu.finished_tx (X : Dfu) : X.finished.tx = X.tx := by
  unfold Dfu.finished Dfu.flush
  split <;> rfl

theorem Receiving.finished_wdt_meta (h : Receiving X₀ img sent tx R) :
    R.dfu.finished.wdt_meta = X₀.wdt_meta := by
  have hne : R.dfu.state ≠ DFU_STATE_DONE := by rw [h.state]; exact DfuState.noConfusion
  exact ((h.stored.session.finish (f := none) hne).kept DfuState.noConfusion).1

theorem Receiving.finished_new_slot (h : Receiving X₀ img sent tx R) :
    R.dfu.finished.new_slot = X₀.new_slot := by
  unfold Dfu.new_slot
  rw [h.finished_wdt_meta]

/-- The read-back looks for nothing but the marker. -/
theorem Receiving.slot_ok (h : Receiving X₀ img (pad img) tx R) (hpos : 0 < img.length)
    (hmax : img.length ≤ 65535) : R.dfu.finished.slot_ok ↔ marker img = DFU_APP_MAGIC := by
  have hnew := h.finished_new_slot
  have hslot : R.dfu.finished.emmc.HoldsImage (APP_SLOT_TO_SECTOR X₀.new_slot) img := h.flushed
  unfold Dfu.slot_ok
  rw [hnew, boot_validate_app_ok, hslot.marker hpos]
  exact and_iff_right (hslot.valid hpos hmax)

/-- The finish packet: the update is committed, or aborted. -/
theorem Receiving.finish_packet (h : Receiving X₀ img (pad img) tx R) (hpos : 0 < img.length)
    (hmax : img.length ≤ 65535) :
    let R' := R.feed_bytes (build_packet CMD_FINISH [0x00])
    (marker img = DFU_APP_MAGIC →
      R'.dfu = R.dfu.finished.commit_slot none ∧ R'.pc = .returned E_OK) ∧
    (marker img ≠ DFU_APP_MAGIC → R'.dfu = R.dfu.finished.abort ∧ R'.pc = .returned E_ABORTED) := by
  obtain ⟨p, hfeed, hcmd, -, -⟩ := DfuReceive.feed_build_packet h.pc
    (by decide : CMD_REQ ≤ CMD_FINISH ∧ CMD_FINISH < NUM_CMDS) (List.cons_ne_nil 0x00 []) (by decide)
  have hcrc : crc32_finish R.dfu.crc_ctx = R.dfu.img_expected_crc := by
    rw [h.crc, h.expected, pad_take]
    rfl
  have hhandle : R.dfu.handle p none = R.dfu.finished := by
    unfold Dfu.handle Dfu.finish
    rw [hcmd, if_neg (by decide), if_neg (by decide), if_neg (by decide), if_neg (by decide),
      if_pos rfl, if_neg (not_not.mpr hcrc)]
    rfl
  have hself : R.dfu.finished.is_self_update = false := by
    have hself := h.self
    unfold Dfu.finished Dfu.flush
    split <;> exact hself
  have hcommit : R.receive p =
      { dfu := R.dfu.finished.commit none, packet := p
        pc := DfuReceive.after_packet (R.dfu.finished.commit none) } := by
    unfold DfuReceive.receive
    rw [hhandle]
    dsimp only
    rw [if_pos (show R.dfu.finished.state = finishing from rfl)]
  dsimp only
  rw [hfeed, hcommit]
  unfold Dfu.commit
  rw [if_neg (by rw [hself]; exact Bool.false_ne_true)]
  refine ⟨fun hm => ?_, fun hm => ?_⟩
  · rw [if_pos ((h.slot_ok hpos hmax).mpr hm)]
    exact ⟨rfl, rfl⟩
  · rw [if_neg (mt (h.slot_ok hpos hmax).mp hm)]
    exact ⟨rfl, rfl⟩

end Finish

section Flash

variable (X : Dfu) (img_expected_crc crc_ctx : UInt32) (packet : DFU_Packet) {img : List UInt8}

theorem flash_eq (hpos : 0 < img.length) (hmax : img.length ≤ 65535) :
    flash img = [TRIGGER_KEY, build_packet CMD_START (start_packet img)] ++
      (data_chunks (pad img) (pad img).length 0).map (build_packet CMD_DATA) ++
      [build_packet CMD_FINISH [0x00]] :=
  if_neg (by omega)

/-- Behind the start packet and some of the data packets. -/
theorem feed_chunks (hpos : 0 < img.length) (hmax : img.length ≤ 65535) (n : Nat) :
    let chunks := (data_chunks (pad img) (pad img).length 0).take n
    Receiving (X.init img_expected_crc crc_ctx) img chunks.flatten
      (X.tx ++ [DFU_ACK, DFU_ACK] ++ List.replicate chunks.length DFU_ACK)
      ((DfuReceive.enter X img_expected_crc crc_ctx packet).feed_bytes
        ([TRIGGER_KEY, build_packet CMD_START (start_packet img)] ++
          chunks.map (build_packet CMD_DATA)).flatten) := by
  intro chunks
  obtain ⟨hdvd, -, hlt⟩ := pad_length img
  obtain ⟨hall, hsize⟩ := data_chunks_spec hdvd (pad img).length 0 rfl (by unfold MAX_CHUNK; omega)
  have hshort : chunks.flatten.length ≤ (pad img).length := by
    rw [← List.drop_zero (l := pad img), ← hall]
    exact ((List.take_sublist ..).flatten).length_le
  have hstart := feed_start X img_expected_crc crc_ctx packet hmax
  have hrun := Receiving.data_packets hmax chunks [] _ _ hstart
    (by rw [List.length_nil]; omega) fun c hc => hsize c (List.mem_of_mem_take hc)
  rw [← DfuReceive.feed_bytes_append, List.nil_append] at hrun
  rw [List.flatten_append, List.flatten_cons, List.flatten_singleton]
  exact hrun

theorem two_acks (tx : List UInt8) (j : Nat) :
    tx ++ [DFU_ACK, DFU_ACK] ++ List.replicate j DFU_ACK =
      tx ++ List.replicate (j + 2) DFU_ACK := by
  rw [List.append_assoc, Nat.add_comm, List.replicate_add]
  rfl

/-- Every packet but the last gets one ACK. -/
theorem flash_acks (hpos : 0 < img.length) (hmax : img.length ≤ 65535) {k : Nat}
    (hk : k < (flash img).length) :
    ((DfuReceive.enter X img_expected_crc crc_ctx packet).feed_bytes
      ((flash img).take k).flatten).dfu.tx = X.tx ++ List.replicate k DFU_ACK := by
  rw [flash_eq hpos hmax] at hk ⊢
  match k with
  | 0 => exact (List.append_nil _).symm
  | 1 => rw [List.append_assoc, List.cons_append, List.take_succ_cons, List.take_zero,
      List.flatten_singleton, feed_trigger]; rfl
  | j + 2 =>
    have hj : j ≤ (data_chunks (pad img) (pad img).length 0).length := by
      simp only [List.length_append, List.length_map, List.length_cons, List.length_nil] at hk
      omega
    have hsent := (feed_chunks X img_expected_crc crc_ctx packet hpos hmax j).answers
    rw [List.length_take, Nat.min_eq_left hj, two_acks] at hsent
    rw [List.take_append_of_le_length (by
      simp only [List.length_append, List.length_map, List.length_cons, List.length_nil]
      omega)]
    rw [List.map_take] at hsent
    exact hsent

/-- Before the finish packet. -/
theorem flash_sent (hpos : 0 < img.length) (hmax : img.length ≤ 65535) :
    ∃ R, Receiving (X.init img_expected_crc crc_ctx) img (pad img)
        (X.tx ++ List.replicate ((flash img).length - 1) DFU_ACK) R ∧
      (DfuReceive.enter X img_expected_crc crc_ctx packet).feed_bytes (flash img).flatten =
        R.feed_bytes (build_packet CMD_FINISH [0x00]) := by
  have hall := feed_chunks X img_expected_crc crc_ctx packet hpos hmax
    (data_chunks (pad img) (pad img).length 0).length
  obtain ⟨hflatten, -⟩ := data_chunks_spec (pad_length img).1 (pad img).length 0 rfl
    (by unfold MAX_CHUNK; omega)
  dsimp only at hall
  rw [List.take_length, two_acks, hflatten, List.drop_zero] at hall
  rw [flash_eq hpos hmax, List.flatten_append, List.flatten_singleton, DfuReceive.feed_bytes_append,
    List.length_append, List.length_append, List.length_map, List.length_singleton,
    Nat.add_sub_cancel, Nat.add_comm]
  exact ⟨_, hall, rfl⟩

/-- The update of an image by the receiver `R₀` over `X`, which ends in `R`: each transfer but the last
gets one ACK; the other slot holds the image and is valid; and the last one makes the slot active, on
trial, exactly if the marker is in place. -/
structure FlashUpdate (X : Dfu) (img : List UInt8) (R₀ R : DfuReceive) : Prop where
  acks : ∀ k, k < (flash img).length →
    (R₀.feed_bytes ((flash img).take k).flatten).dfu.tx = X.tx ++ List.replicate k DFU_ACK
  holds : R.dfu.emmc.HoldsImage (APP_SLOT_TO_SECTOR X.new_slot) img
  valid : ∀ buf, (boot_validate_app R.dfu.emmc.reads buf (APP_SLOT_TO_SECTOR X.new_slot)).1 = E_OK
  commits : marker img = DFU_APP_MAGIC → R.pc = .returned E_OK ∧
    R.dfu.tx = X.tx ++ List.replicate (flash img).length DFU_ACK ∧
    R.dfu.wdt_meta.active_app_slot = X.new_slot ∧ R.dfu.wdt_meta.app_slot_trial = 1 ∧
    wdt_meta_decode (R.dfu.emmc EMMC_SECTOR_METADATA) = R.dfu.wdt_meta
  aborts : marker img ≠ DFU_APP_MAGIC → R.pc = .returned E_ABORTED ∧
    R.dfu.tx = X.tx ++ List.replicate ((flash img).length - 1) DFU_ACK ++ [DFU_NACK] ∧
    R.dfu.wdt_meta = X.wdt_meta ∧ R.dfu.emmc EMMC_SECTOR_METADATA = X.emmc EMMC_SECTOR_METADATA

theorem flash_updates (hpos : 0 < img.length) (hmax : img.length ≤ 65535) :
    FlashUpdate X img (DfuReceive.enter X img_expected_crc crc_ctx packet)
      ((DfuReceive.enter X img_expected_crc crc_ctx packet).feed_bytes (flash img).flatten) := by
  generalize hRR : (DfuReceive.enter X img_expected_crc crc_ctx packet).feed_bytes
    (flash img).flatten = R
  obtain ⟨R₁, hsent, hR⟩ := flash_sent X img_expected_crc crc_ctx packet hpos hmax
  obtain ⟨hcommit, habort⟩ := hsent.finish_packet hpos hmax
  rw [← hR, hRR] at hcommit habort
  have hslot := hsent.flushed
  have hlen : 0 < (flash img).length := by
    rw [flash_eq hpos hmax]
    exact Nat.zero_lt_succ _
  have hholds : R.dfu.emmc.HoldsImage (APP_SLOT_TO_SECTOR X.new_slot) img := by
    by_cases hm : marker img = DFU_APP_MAGIC
    · rw [show R.dfu = _ from (hcommit hm).1]
      refine hslot.mono fun s hs => ?_
      have hne : s ≠ EMMC_SECTOR_METADATA :=
        Nat.ne_of_gt (Nat.lt_of_lt_of_le (APP_SLOT_TO_SECTOR_metadata _) hs)
      exact wdt_meta_write_emmc (E := R₁.dfu.finished.emmc) (f := none) hne
    · rw [show R.dfu = _ from (habort hm).1]
      exact hslot
  refine ⟨fun k hk => flash_acks X img_expected_crc crc_ctx packet hpos hmax hk, hholds,
    fun buf => (boot_validate_app_ok _ _ _).mpr (hholds.valid hpos hmax), fun hm => ?_, fun hm => ?_⟩
  · obtain ⟨hdfu, hpc⟩ := hcommit hm
    have hdfu : R.dfu = R₁.dfu.finished.commit_slot none := hdfu
    have htx : R.dfu.tx = R₁.dfu.tx ++ [DFU_ACK] := by
      rw [hdfu, Dfu.commit_slot, Dfu.answer]
      dsimp only
      rw [R₁.dfu.finished_tx]
    have hactive : R.dfu.wdt_meta.active_app_slot = X.new_slot := by
      rw [hdfu]
      exact hsent.finished_new_slot
    have htrial : R.dfu.wdt_meta.app_slot_trial = 1 := by rw [hdfu]; rfl
    have hmeta : wdt_meta_decode (R.dfu.emmc EMMC_SECTOR_METADATA) = R.dfu.wdt_meta := by
      rw [hdfu]
      exact congrArg Prod.snd (wdt_meta_read_write R₁.dfu.finished.emmc { R₁.dfu.finished.wdt_meta with
        active_app_slot := R₁.dfu.finished.new_slot, app_slot_trial := 1
        trial_boot_count := 0 } R₁.dfu.wdt_meta)
    refine ⟨hpc, ?_, hactive, htrial, hmeta⟩
    rw [htx, hsent.answers, List.append_assoc, ← List.replicate_succ',
      Nat.sub_add_cancel hlen]
  · obtain ⟨hdfu, hpc⟩ := habort hm
    have hdfu : R.dfu = R₁.dfu.finished.abort := hdfu
    rw [hdfu]
    refine ⟨hpc, ?_, hsent.finished_wdt_meta, ?_⟩
    · show R₁.dfu.finished.tx ++ [DFU_NACK] = _
      rw [R₁.dfu.finished_tx, hsent.answers]
    · exact (Dfu.flush_emmc_of_ne hsent.next_ne_metadata).trans hsent.metadata

end Flash

/-- An image that ends with its marker becomes the active one. -/
theorem flash_updates_marker :
    let img := List.replicate 32 0x5A ++ word_bytes DFU_APP_MAGIC
    let R := (DfuReceive.enter dfu_fresh 0 0 (zero_packet 0 0)).feed_bytes (flash img).flatten
    R.pc = .returned E_OK ∧ R.dfu.wdt_meta.active_app_slot = APP_SLOT_B := by
  intro img R
  have hmarker : marker img = DFU_APP_MAGIC := by decide
  obtain ⟨hpc, -, hactive, -⟩ := (flash_updates dfu_fresh 0 0 (zero_packet 0 0)
    (by decide : 0 < img.length) (by decide)).commits hmarker
  exact ⟨hpc, hactive⟩

end Rpitos
