import Rpitos.Boot.DfuHash

/-!
# Boot.SelfUpdate

The update of the bootloader itself, and `kmain` of the bootstrap, which loads what it left on the
card. `self_update_boots`: when the writes that the bootloader needs take effect, and it is neither
empty nor longer than what was sent, the acknowledged bootloader is accepted. `self_update_hangs`: an
empty one, a short one and one with a failed write are acknowledged as well.
-/

namespace Rpitos

open Function StatusCode DfuState

/-- How the bootstrap ends. -/
inductive BootstrapEnd where
  /-- In `while (1)`. -/
  | hangs
  /-- At `BOOTLOADER_LOAD_ADDR`. -/
  | jumps
  deriving DecidableEq, Repr

/-- `kmain` of the bootstrap, from the read of the header on. `ram` is the memory behind
`BOOTLOADER_LOAD_ADDR`, `faults` are the errors of the two reads. -/
def bootstrap_kmain (E : Emmc) (header_buf ram : Sector)
    (faults : Option StatusCode × Option StatusCode) : BootstrapEnd :=
  let r := emmc_read_blocks E EMMC_SECTOR_BOOTLOADER header_buf 1 faults.1
  if r.1 ≠ E_OK then .hangs
  else
    let hdr := StartPacket.of_buffer r.2
    if hdr.fw_length = 0 then .hangs
    else
      let sectors := BYTES_TO_SECTORS hdr.fw_length.toNat
      let r := emmc_read_blocks E (EMMC_SECTOR_BOOTLOADER + 1) ram sectors faults.2
      if r.1 ≠ E_OK then .hangs
      else
        let actual_crc := crc32 (bytes_at r.2 0 hdr.fw_length.toNat)
        if actual_crc ≠ hdr.crc then .hangs else .jumps

/-- What the bootstrap looks for. -/
def Emmc.ValidBootloader (E : Emmc) : Prop :=
  let hdr := StartPacket.of_buffer (E EMMC_SECTOR_BOOTLOADER)
  hdr.fw_length ≠ 0 ∧
    crc32 (E.image (EMMC_SECTOR_BOOTLOADER + 1) hdr.fw_length.toNat) = hdr.crc

/-- A header is read from the first bytes of its sector. -/
theorem StartPacket.of_bytes (buf : Sector) :
    StartPacket.of_buffer (buffer_of (bytes_at buf 0 START_PACKET_SIZE)) =
      StartPacket.of_buffer buf := rfl

theorem StartPacket.of_buffer_congr {buf buf' : Sector}
    (h : ∀ i, i < START_PACKET_SIZE → buf i = buf' i) :
    StartPacket.of_buffer buf = StartPacket.of_buffer buf' := by
  rw [← of_bytes buf, ← of_bytes buf']
  congr 2
  refine List.map_congr_left fun i hi => ?_
  rw [Nat.zero_add]
  exact h i (List.mem_range.mp hi)

/-- With reads that succeed, a valid bootloader is loaded; the length must leave room for the rounding. -/
theorem bootstrap_kmain_jumps {E : Emmc} (h : E.ValidBootloader) (header_buf ram : Sector)
    (hround : (StartPacket.of_buffer (E EMMC_SECTOR_BOOTLOADER)).fw_length.toNat + 511 < 2 ^ 32) :
    bootstrap_kmain E header_buf ram (none, none) = .jumps := by
  have hhdr : StartPacket.of_buffer (emmc_read_blocks E EMMC_SECTOR_BOOTLOADER header_buf 1 none).2 =
      StartPacket.of_buffer (E EMMC_SECTOR_BOOTLOADER) := by
    refine StartPacket.of_buffer_congr fun i hi => ?_
    have hi : i < SECTOR_SIZE := Nat.lt_trans hi (by decide)
    show (if i < SECTOR_SIZE * 1 then _ else _) = _
    rw [if_pos (by omega), Nat.div_eq_of_lt hi, Nat.mod_eq_of_lt hi, Nat.add_zero]
  obtain ⟨hlength, hcrc⟩ := h
  have himage : bytes_at (emmc_read_blocks E (EMMC_SECTOR_BOOTLOADER + 1) ram
      (BYTES_TO_SECTORS (StartPacket.of_buffer (E EMMC_SECTOR_BOOTLOADER)).fw_length.toNat) none).2 0
        (StartPacket.of_buffer (E EMMC_SECTOR_BOOTLOADER)).fw_length.toNat =
      E.image (EMMC_SECTOR_BOOTLOADER + 1)
        (StartPacket.of_buffer (E EMMC_SECTOR_BOOTLOADER)).fw_length.toNat := by
    generalize (StartPacket.of_buffer (E EMMC_SECTOR_BOOTLOADER)).fw_length.toNat = n at hround ⊢
    refine List.map_congr_left fun i hi => ?_
    have hi : i < n := List.mem_range.mp hi
    have hsectors : BYTES_TO_SECTORS n = (n + 511) / 512 := by
      unfold BYTES_TO_SECTORS u32 SECTOR_SIZE
      rw [Nat.mod_eq_of_lt (by omega)]
      rfl
    show (if 0 + i < _ then _ else _) = _
    rw [Nat.zero_add, if_pos (by rw [hsectors]; unfold SECTOR_SIZE; omega)]
  have hread : ∀ sector buf count, (emmc_read_blocks E sector buf count none).1 = E_OK :=
    fun _ _ _ => rfl
  unfold bootstrap_kmain
  dsimp only
  rw [if_neg (not_not.mpr (hread _ _ _)), hhdr, if_neg hlength, if_neg (not_not.mpr (hread _ _ _)),
    himage, if_neg (not_not.mpr hcrc)]

/-- Packets fit the parser's buffer; the hashed bytes are counted, and the sector number does not wrap.
The writes of a bootloader update that carry its header and its declared bytes take effect, and what
is finished is neither empty nor longer than what was sent. -/
def Dfu.installs (X : Dfu) : DfuAction → Prop
  | .packet p f => p.LEN ≤ MAX_DATA_SIZE_BYTES ∧ X.counts (.packet p f) ∧
      (p.CMD = CMD_START_SELF_UPDATE → X.started = false → p.LEN = START_PACKET_SIZE →
        X.emmc.leaves EMMC_SECTOR_BOOTLOADER
          (copy_bytes X.current_sector 0 p.DATA START_PACKET_SIZE) START_PACKET_SIZE f) ∧
      (p.CMD = CMD_DATA → p.LEN % 4 = 0 → X.state = DFU_STATE_RECIEVE_DATA →
        X.is_self_update = true → SECTOR_SIZE ≤ X.current_sector_counter + p.LEN →
        X.dfu_base_sector + X.sectors_written < 2 ^ 32 ∧
          X.emmc.leaves (X.dfu_base_sector + X.sectors_written) (X.filled p)
            (X.img_length.toNat - SECTOR_SIZE * (X.data.length / SECTOR_SIZE)) f) ∧
      (p.CMD = CMD_FINISH → crc32_finish X.crc_ctx = X.img_expected_crc →
        X.is_self_update = true →
        (X.unwritten_sector = true → X.dfu_base_sector + X.sectors_written < 2 ^ 32 ∧
          X.emmc.leaves (X.dfu_base_sector + X.sectors_written) X.padded
            (X.img_length.toNat - SECTOR_SIZE * (X.data.length / SECTOR_SIZE)) f) ∧
        X.img_length ≠ 0 ∧ X.img_length.toNat ≤ X.data.length ∧
        X.img_length.toNat + 511 < 2 ^ 32)
  | .commit _ => True

/-- A finished bootloader update: header and image are on the card. -/
structure Dfu.Complete (X : Dfu) : Prop where
  header : bytes_at (X.emmc EMMC_SECTOR_BOOTLOADER) 0 START_PACKET_SIZE = X.header
  image : ∀ i, i < X.img_length.toNat →
    X.emmc (EMMC_SECTOR_BOOTLOADER + 1 + i / SECTOR_SIZE) (i % SECTOR_SIZE) = X.data.getD i 0
  pos : X.img_length ≠ 0
  sent : X.img_length.toNat ≤ X.data.length
  round : X.img_length.toNat + 511 < 2 ^ 32

/-- A bootloader update while it is received, and when it is finished. -/
structure Installed (X : Dfu) : Prop where
  hashed : Hashed X
  fresh : X.started = false → X.current_sector_counter = 0
  base : X.is_self_update = true → X.dfu_base_sector = EMMC_SECTOR_BOOTLOADER
  placed : X.is_self_update = true → X.open_session = true → Placed X.img_length.toNat X
  complete : X.is_self_update = true → X.state = finishing ∨ X.state = resetting → X.Complete
  resets : X.state = resetting → X.is_self_update = true

namespace Installed

variable {X Y : Dfu} {a : DfuAction} {p : DFU_Packet} {f : Option StatusCode}

theorem abort (h : Installed X) : Installed X.abort where
  hashed := h.hashed.abort
  fresh := h.fresh
  base := h.base
  placed _ ho := nomatch ho
  complete _ hc := hc.elim DfuState.noConfusion DfuState.noConfusion
  resets hr := nomatch hr

theorem start (h : Installed X) (hnew : X.started = false) :
    Installed (X.begin_session p (APP_SLOT_TO_SECTOR X.new_slot) false f) where
  hashed := h.hashed.begin_session hnew false
  fresh hn := nomatch hn
  base hself := nomatch hself
  placed hself := nomatch hself
  complete hself := nomatch hself
  resets hr := nomatch hr

theorem start_self (h : Installed X) (hnew : X.started = false)
    (hleaves : X.emmc.leaves EMMC_SECTOR_BOOTLOADER
      (copy_bytes X.current_sector 0 p.DATA START_PACKET_SIZE) START_PACKET_SIZE f) :
    Installed (X.begin_session p EMMC_SECTOR_BOOTLOADER true f) where
  hashed := h.hashed.begin_session hnew true
  fresh hn := nomatch hn
  base _ := rfl
  placed _ _ := .start (by decide) (by decide) (h.hashed.fresh hnew).1 (h.fresh hnew) true hleaves
  complete _ hc := hc.elim DfuState.noConfusion DfuState.noConfusion
  resets hr := nomatch hr

theorem data (h : Installed X) (hcmd : p.CMD = CMD_DATA) (hmod : p.LEN % 4 = 0)
    (hst : X.state = DFU_STATE_RECIEVE_DATA) (hok : X.installs (.packet p f)) :
    Installed (X.accept_data p f) := by
  obtain ⟨hlen, hcounts, -, hdata, -⟩ := hok
  have hopen : X.open_session = true := by
    unfold Dfu.open_session
    rw [hst]
    rfl
  have hstart := h.hashed.started_of hst
  have hplaced : X.is_self_update = true → Placed X.img_length.toNat (X.accept_data p f) :=
    fun hself => (h.placed hself hopen).data hlen
      (fun hfull => (hdata hcmd hmod hst hself hfull).1)
      fun hfull => (hdata hcmd hmod hst hself hfull).2
  have hhashed := h.hashed.data (f := f) hst (hcounts hcmd hmod hst)
  obtain ⟨crc, n, heq⟩ := X.accept_data_eq p f
  obtain ⟨_, _, _, _, _, _, hfill⟩ := X.fill_eq p f
  rw [hfill] at heq
  rw [heq] at hhashed hplaced ⊢
  refine ⟨hhashed, fun hn => (nomatch hstart.symm.trans hn), h.base, fun hself _ => hplaced hself,
    fun _ hc => ?_, fun hr => nomatch hst.symm.trans hr⟩
  have hc : X.state = finishing ∨ X.state = resetting := hc
  rw [hst] at hc
  exact hc.elim DfuState.noConfusion DfuState.noConfusion

theorem finish (h : Installed X) (hopen : X.open_session = true) (hcmd : p.CMD = CMD_FINISH)
    (hcrc : crc32_finish X.crc_ctx = X.img_expected_crc) (hok : X.installs (.packet p f)) :
    Installed { X.flush f with state := finishing } := by
  obtain ⟨-, -, -, -, hfinish⟩ := hok
  have hcomplete : X.is_self_update = true →
      ({ X.flush f with state := finishing } : Dfu).Complete := by
    intro hself
    obtain ⟨hwrite, hpos, hsent, hround⟩ := hfinish hcmd hcrc hself
    obtain ⟨hheader, himage⟩ := (h.placed hself hopen).flush (f := f)
      (fun hu => (hwrite hu).1) fun hu => (hwrite hu).2
    rw [h.base hself] at hheader himage
    obtain ⟨emmc, buf, log, heq⟩ := X.flush_eq f
    rw [heq] at hheader himage ⊢
    refine ⟨hheader, fun i hi => himage i hi ?_, hpos, hsent, hround⟩
    have hi : i < X.img_length.toNat := hi
    unfold SECTOR_SIZE
    omega
  have hhashed := h.hashed.finish (f := f) hcrc
  obtain ⟨emmc, buf, log, heq⟩ := X.flush_eq f
  rw [heq] at hcomplete hhashed ⊢
  exact ⟨hhashed, h.fresh, h.base, fun _ ho => (nomatch ho), fun hself _ => hcomplete hself,
    fun hr => nomatch hr⟩

theorem step (h : Installed X) (hok : X.installs a) (hX : X.step a = some Y) : Installed Y := by
  have hmove := Dfu.step_move hX
  cases hmove with
  | idle _ => exact h
  | refuse _ => exact h.abort
  | start _ _ hnew => exact h.start hnew
  | start_self _ hcmd hnew hlen => exact h.start_self hnew (hok.2.2.1 hcmd hnew hlen)
  | data hcmd hlen hst => exact h.data hcmd hlen hst hok
  | finish hopen hcmd hcrc => exact h.finish hopen hcmd hcrc hok
  | reset hst hself =>
    have hdone := h.complete hself (.inl hst)
    have hhashed := h.hashed.step (by exact trivial) hX
    exact ⟨hhashed, h.fresh, h.base, fun _ ho => (nomatch ho), fun _ _ =>
      ⟨hdone.header, hdone.image, hdone.pos, hdone.sent, hdone.round⟩, fun _ => hself⟩
  | commit hst hself =>
    have hhashed := h.hashed.step (by exact trivial) hX
    exact ⟨hhashed, h.fresh, h.base, fun hs => (nomatch hself.symm.trans hs),
      fun hs => (nomatch hself.symm.trans hs), fun hr => nomatch hr⟩
  | reject _ => exact h.abort

theorem init (X : Dfu) (img_expected_crc crc_ctx : UInt32) :
    Installed (X.init img_expected_crc crc_ctx) where
  hashed := .init X _ _
  fresh _ := rfl
  base hself := nomatch hself
  placed hself := nomatch hself
  complete hself := nomatch hself
  resets hr := nomatch hr

theorem started (h : Installed X) (hself : X.is_self_update = true) : X.started = true := by
  cases hstart : X.started with
  | true => rfl
  | false => exact nomatch hself.symm.trans (h.hashed.fresh hstart).2.2.2.1

/-- The header on the card is the one that was sent. -/
theorem hdr (h : Installed X) (hack : X.state = resetting) :
    StartPacket.of_buffer (X.emmc EMMC_SECTOR_BOOTLOADER) = X.start_pkt := by
  have hheader := (h.complete (h.resets hack) (.inr hack)).header
  rw [← StartPacket.of_bytes, hheader]
  rfl

/-- The bootloader on the card is valid. -/
theorem valid (h : Installed X) (hack : X.state = resetting) : X.emmc.ValidBootloader := by
  have hself := h.resets hack
  have hstart := h.started hself
  have hlength := h.hashed.length hstart
  obtain ⟨-, himage, hpos, hsent, -⟩ := h.complete hself (.inr hack)
  rw [hlength] at himage hpos hsent
  unfold Emmc.ValidBootloader
  rw [h.hdr hack]
  dsimp only
  rw [Emmc.image_eq_take himage hsent]
  exact ⟨hpos, (h.hashed.image_crc hstart (.inr (.inr hack))).symm⟩

end Installed

/-- When the writes that the bootloader needs take effect, and it is neither empty nor longer than what
was sent, an acknowledged bootloader is valid, and the bootstrap jumps to it. -/
theorem self_update_boots (X Y : Dfu) (img_expected_crc crc_ctx : UInt32)
    (hr : Reach Dfu.step Dfu.installs (X.init img_expected_crc crc_ctx) Y)
    (hack : Y.state = resetting) (header_buf ram : Sector) :
    Y.emmc.ValidBootloader ∧ bootstrap_kmain Y.emmc header_buf ram (none, none) = .jumps := by
  have hinv : Installed Y := by
    refine hr.invariant (.init X _ _) ?_
    intro s s' a hs hok h
    exact hs.step hok h
  have hvalid := hinv.valid hack
  have hdone := hinv.complete (hinv.resets hack) (.inr hack)
  refine ⟨hvalid, bootstrap_kmain_jumps hvalid _ _ ?_⟩
  rw [hinv.hdr hack, ← hinv.hashed.length (hinv.started (hinv.resets hack))]
  exact hdone.round

/-- The header of a bootloader of this length and CRC. -/
def self_update_start (fw_length crc : UInt32) : DFU_Packet where
  CMD := CMD_START_SELF_UPDATE
  LEN := START_PACKET_SIZE
  DATA := buffer_of ([1, fw_length, crc].flatMap word_bytes)
  CRC := 0

/-- Four bytes of a bootloader; their CRC is 0x2F359688. -/
def self_update_data : DFU_Packet where
  CMD := CMD_DATA
  LEN := 4
  DATA := fun _ => 0x5A
  CRC := 0

/-- The update with these four bytes, up to the packets that are named; every write takes effect. -/
def four_bytes_started : Dfu :=
  (dfu_fresh.init 0 0).handle (self_update_start 4 0x2F359688) none
def four_bytes_received : Dfu := four_bytes_started.handle self_update_data none
def four_bytes_finished : Dfu := four_bytes_received.handle (zero_packet CMD_FINISH 1) none

theorem self_update_boots_four_bytes :
    (four_bytes_finished.commit none).emmc.ValidBootloader ∧
      bootstrap_kmain (four_bytes_finished.commit none).emmc (fun _ => 0) (fun _ => 0)
        (none, none) = .jumps := by
  have hstarted : Reach Dfu.step Dfu.installs (dfu_fresh.init 0 0) four_bytes_started :=
    .step .start (a := .packet (self_update_start 4 0x2F359688) none)
      ⟨by decide, fun h => absurd h (by decide), fun _ _ _ => .inl rfl, fun h => absurd h (by decide),
        fun h => absurd h (by decide)⟩ rfl
  have hreceived : Reach Dfu.step Dfu.installs (dfu_fresh.init 0 0) four_bytes_received :=
    .step hstarted (a := .packet self_update_data none)
      ⟨by decide, fun _ _ _ => by decide +kernel, fun h => absurd h (by decide),
        fun _ _ _ _ hfull => absurd hfull (by decide +kernel), fun h => absurd h (by decide)⟩
      (Dfu.step_packet (by decide +kernel))
  have hfinished : Reach Dfu.step Dfu.installs (dfu_fresh.init 0 0) four_bytes_finished :=
    .step hreceived (a := .packet (zero_packet CMD_FINISH 1) none)
      ⟨by decide, fun h => absurd h (by decide), fun h => absurd h (by decide),
        fun h => absurd h (by decide), fun _ _ _ => ⟨fun _ => ⟨by decide +kernel, .inl rfl⟩,
          by decide +kernel, by decide +kernel, by decide +kernel⟩⟩
      (Dfu.step_packet (by decide +kernel))
  exact self_update_boots dfu_fresh _ 0 0
    (.step hfinished (a := .commit none) trivial (Dfu.step_commit (by decide +kernel)))
    (by decide +kernel) _ _

/-- An update with the four bytes, when the write of their sector gives `fault`. -/
def self_update_run (fw_length : UInt32) (fault : Option StatusCode) : List DfuAction :=
  [.packet (self_update_start fw_length 0x2F359688) none, .packet self_update_data none,
    .packet (zero_packet CMD_FINISH 1) fault, .commit none]

/-- An update with no bytes, one that declares more than it sends, and one whose sector is not written:
each is acknowledged, and the bootstrap hangs. -/
theorem self_update_hangs :
    [[.packet (self_update_start 0 0) none, .packet (zero_packet CMD_FINISH 1) none, .commit none],
      self_update_run 8 none, self_update_run 4 (some E_TIMED_OUT)].map (fun run =>
        (execute Dfu.step anything (dfu_fresh.init 0 0) run).map fun Y => (Y.state, Y.tx.getLast?,
          bootstrap_kmain Y.emmc (fun _ => 0) (fun _ => 0) (none, none))) =
      List.replicate 3 (some (resetting, some DFU_ACK, .hangs)) := by
  decide +kernel

end Rpitos
