import Rpitos.Boot.DfuSectors

/-!
# Boot.DfuImage

What the final answer of an app update says about the card. `Stored`: while every write takes effect,
the slot holds the header and the filled sectors, and the sector buffer holds the rest.
`dfu_ack_means_stored`: then the acknowledged slot holds what was sent. `dfu_ack_without_commit`: the
result of the metadata write is not looked at.
-/

namespace Rpitos

open Function StatusCode DfuState

/-- The write takes effect: the card reports no error, or the sector holds these bytes already. -/
def Emmc.takes (E : Emmc) (sector : Nat) (buf : Sector) (f : Option StatusCode) : Prop :=
  f = none ∨ E sector = clip buf

theorem Emmc.takes_write {E : Emmc} {sector : Nat} {buf : Sector} {f : Option StatusCode}
    (hfloor : EMMC_FIRMWARE_FLOOR ≤ sector) (h : E.takes sector buf f) :
    (emmc_write_blocks E sector buf f).2 = update E sector (clip buf) := by
  unfold emmc_write_blocks
  rw [if_neg (by omega)]
  rcases h with rfl | h
  · rfl
  · cases f with
    | none => rfl
    | some e => rw [← h, update_eq_self]

theorem Emmc.takes.leaves {E : Emmc} {sector : Nat} {buf : Sector} {f : Option StatusCode}
    (h : E.takes sector buf f) (n : Nat) : E.leaves sector buf n f := by
  refine h.imp_right fun h j _ hj => ?_
  rw [h, clip, if_pos hj]

/-- The session of an app, behind its start packet. -/
def Dfu.app (X : Dfu) : Prop := X.started = true ∧ X.is_self_update = false

/-- Packets fit the parser's buffer and the sector number does not wrap; the writes of an app update
take effect; and what is committed is no shorter than the header says. -/
def Dfu.lands (X : Dfu) : DfuAction → Prop
  | .packet p f => X.noWrap (.packet p f) ∧
      (p.CMD = CMD_START → X.started = false → p.LEN = START_PACKET_SIZE →
        X.emmc.takes (APP_SLOT_TO_SECTOR X.new_slot)
          (copy_bytes X.current_sector 0 p.DATA START_PACKET_SIZE) f) ∧
      (p.CMD = CMD_DATA → p.LEN % 4 = 0 → X.state = DFU_STATE_RECIEVE_DATA →
        X.is_self_update = false → SECTOR_SIZE ≤ X.current_sector_counter + p.LEN →
        X.emmc.takes (X.dfu_base_sector + X.sectors_written) (X.filled p) f) ∧
      (p.CMD = CMD_FINISH → crc32_finish X.crc_ctx = X.img_expected_crc →
        X.unwritten_sector = true → X.is_self_update = false →
        X.emmc.takes (X.dfu_base_sector + X.sectors_written) X.padded f)
  | .commit f => X.is_self_update = false → X.slot_ok →
      X.emmc.takes EMMC_SECTOR_METADATA ({ X.wdt_meta with
        active_app_slot := X.new_slot, app_slot_trial := 1,
        trial_boot_count := 0 } : WdtMeta).sealed.to_sector f ∧
      X.img_length.toNat ≤ X.data.length

/-- The card holds what was sent, apart from the rest that is still in the sector buffer. -/
structure Stored (X₀ X : Dfu) : Prop where
  session : Session X₀ X
  length : X.app → X.img_length = word_at (buffer_of X.header) 4
  header : X.app → bytes_at (X.emmc X.dfu_base_sector) 0 START_PACKET_SIZE = X.header
  image : X.app → ∀ i, i / SECTOR_SIZE < X.data.length / SECTOR_SIZE →
    X.emmc (X.dfu_base_sector + 1 + i / SECTOR_SIZE) (i % SECTOR_SIZE) = X.data.getD i 0
  buffer : X.app → ∀ i, i < X.current_sector_counter →
    X.current_sector i = X.data.getD (SECTOR_SIZE * (X.data.length / SECTOR_SIZE) + i) 0
  /-- `CMD_FINISH` writes the rest. -/
  flushed : X.app → X.state = finishing ∨ X.state = DFU_STATE_DONE → ∀ i, i < X.data.length →
    X.emmc (X.dfu_base_sector + 1 + i / SECTOR_SIZE) (i % SECTOR_SIZE) = X.data.getD i 0
  committed : X.state = DFU_STATE_DONE → X.is_self_update = false ∧
    X.wdt_meta.active_app_slot = X₀.new_slot ∧ X.wdt_meta.app_slot_trial = 1 ∧
    wdt_meta_decode (X.emmc EMMC_SECTOR_METADATA) = X.wdt_meta ∧
    X.img_length.toNat ≤ X.data.length

namespace Stored

variable {X₀ X Y : Dfu} {a : DfuAction} {p : DFU_Packet} {f : Option StatusCode}

theorem abort (hs : Stored X₀ X) (hne : X.state ≠ DFU_STATE_DONE) : Stored X₀ X.abort where
  session := hs.session.abort hne
  length := hs.length
  header := hs.header
  image := hs.image
  buffer := hs.buffer
  flushed _ h := h.elim DfuState.noConfusion DfuState.noConfusion
  committed h := DfuState.noConfusion h

/-- An answer changes nothing that is stored. -/
theorem answer (hs : Stored X₀ X) (byte : UInt8) : Stored X₀ (X.answer byte) where
  session := ⟨hs.session.fresh, hs.session.base, hs.session.sectors, hs.session.counter,
    hs.session.pending, hs.session.room, hs.session.kept⟩
  length := hs.length
  header := hs.header
  image := hs.image
  buffer := hs.buffer
  flushed := hs.flushed
  committed := hs.committed

/-- What the sector writer has placed, with no bound. -/
theorem placed (hs : Stored X₀ X) (happ : X.app) (n : Nat) : Placed n X where
  floor := by
    rw [hs.session.base happ.1]
    exact (X₀.target_room _).1
  room := by
    have hroom := hs.session.room
    omega
  sectors := hs.session.sectors happ.1
  counter := hs.session.counter
  pending := hs.session.pending
  header := hs.header happ
  image i _ := hs.image happ i
  buffer := hs.buffer happ

/-- The number of the sector that is written next does not wrap. -/
theorem next_room (hs : Stored X₀ X) (happ : X.app) :
    X.dfu_base_sector + X.sectors_written < 2 ^ 32 := by
  have hroom := hs.session.room
  rw [hs.session.sectors happ.1]
  omega

theorem start (hs : Stored X₀ X) (hopen : X.open_session = true) (hnew : X.started = false)
    (htakes : X.emmc.takes (APP_SLOT_TO_SECTOR X.new_slot)
      (copy_bytes X.current_sector 0 p.DATA START_PACKET_SIZE) f) :
    Stored X₀ (X.begin_session p (APP_SLOT_TO_SECTOR X.new_slot) false f) := by
  have hne := (Dfu.open_ne hopen).1
  obtain ⟨-, hu, hd, -, -⟩ := hs.session.fresh hnew
  have hroom := X.target_room false
  have hplaced : ∀ n, Placed n (X.begin_session p (APP_SLOT_TO_SECTOR X.new_slot) false f) :=
    fun n => .start hroom.1 (Nat.lt_trans hroom.2 (by decide)) hd (hs.session.pending hu) false
      (htakes.leaves _)
  refine ⟨hs.session.begin_session hnew hne ?_, fun _ => rfl, fun _ => (hplaced 0).header,
    fun _ i hi => (hplaced (i + 1)).image i (Nat.lt_succ_self i) hi, fun _ => (hplaced 0).buffer,
    fun _ h => h.elim DfuState.noConfusion DfuState.noConfusion, DfuState.noConfusion⟩
  unfold Dfu.new_slot
  rw [(hs.session.kept hne).1]
  rfl

theorem data (hs : Stored X₀ X) (hst : X.state = DFU_STATE_RECIEVE_DATA)
    (hsession : Session X₀ (X.accept_data p f)) (hlen : p.LEN ≤ MAX_DATA_SIZE_BYTES)
    (htakes : X.is_self_update = false → SECTOR_SIZE ≤ X.current_sector_counter + p.LEN →
      X.emmc.takes (X.dfu_base_sector + X.sectors_written) (X.filled p) f) :
    Stored X₀ (X.accept_data p f) := by
  have hplaced : X.app → ∀ n, Placed n (X.accept_data p f) := fun happ n =>
    (hs.placed happ n).data hlen (fun _ => hs.next_room happ) fun hfull =>
      (htakes happ.2 hfull).leaves _
  have hne : X.state ≠ finishing ∧ X.state ≠ DFU_STATE_DONE := by
    rw [hst]
    exact ⟨DfuState.noConfusion, DfuState.noConfusion⟩
  obtain ⟨crc, n, heq⟩ := X.accept_data_eq p f
  obtain ⟨_, _, _, _, _, _, hfill⟩ := X.fill_eq p f
  rw [hfill] at heq
  rw [heq] at hsession hplaced ⊢
  exact ⟨hsession, hs.length, fun happ => (hplaced happ 0).header,
    fun happ i hi => (hplaced happ (i + 1)).image i (Nat.lt_succ_self i) hi,
    fun happ => (hplaced happ 0).buffer, fun _ h => (h.elim hne.1 hne.2).elim,
    fun h => (hne.2 h).elim⟩

theorem finish (hs : Stored X₀ X) (hne : X.state ≠ DFU_STATE_DONE)
    (htakes : X.unwritten_sector = true → X.is_self_update = false →
      X.emmc.takes (X.dfu_base_sector + X.sectors_written) X.padded f) :
    Stored X₀ { X.flush f with state := finishing } := by
  have hsession := hs.session.finish (f := f) hne
  have hflush : X.app → _ := fun happ n =>
    (hs.placed happ n).flush (fun _ => hs.next_room happ) fun hu => (htakes hu happ.2).leaves _
  have hwhole : X.app → ∀ i, i < X.data.length → (X.flush f).emmc
      (X.dfu_base_sector + 1 + i / SECTOR_SIZE) (i % SECTOR_SIZE) = X.data.getD i 0 := by
    intro happ i hi
    refine (hflush happ (i + 1)).2 i (Nat.lt_succ_self i) ?_
    unfold SECTOR_SIZE
    omega
  have hbuffer : X.app → ∀ i, i < X.current_sector_counter → (X.flush f).current_sector i =
      X.data.getD (SECTOR_SIZE * (X.data.length / SECTOR_SIZE) + i) 0 := by
    intro happ i hi
    rw [← hs.buffer happ i hi]
    unfold Dfu.flush
    split
    · show copy_bytes X.current_sector X.current_sector_counter (fun _ => 0)
        (SECTOR_SIZE - X.current_sector_counter) i = X.current_sector i
      rw [copy_bytes_apply, if_neg (by omega)]
    · rfl
  obtain ⟨emmc, buf, log, heq⟩ := X.flush_eq f
  rw [heq] at hsession hflush hwhole hbuffer ⊢
  refine ⟨hsession, hs.length, fun happ => (hflush happ 0).1, fun happ i hi => hwhole happ i ?_,
    hbuffer, fun happ _ => hwhole happ, DfuState.noConfusion⟩
  have hi : i / SECTOR_SIZE < X.data.length / SECTOR_SIZE := hi
  unfold SECTOR_SIZE at hi
  omega

theorem commit (hs : Stored X₀ X) (hst : X.state = finishing) (hself : X.is_self_update = false)
    (htakes : X.emmc.takes EMMC_SECTOR_METADATA ({ X.wdt_meta with
      active_app_slot := X.new_slot, app_slot_trial := 1,
      trial_boot_count := 0 } : WdtMeta).sealed.to_sector f)
    (hlen : X.img_length.toNat ≤ X.data.length) (hsession : Session X₀ (X.commit_slot f)) :
    Stored X₀ (X.commit_slot f) := by
  have hemmc : (X.commit_slot f).emmc = update X.emmc EMMC_SECTOR_METADATA
      (clip ({ X.wdt_meta with
        active_app_slot := X.new_slot, app_slot_trial := 1,
        trial_boot_count := 0 } : WdtMeta).sealed.to_sector) :=
    Emmc.takes_write (by decide) htakes
  have hslot : X.app → EMMC_SECTOR_METADATA < X.dfu_base_sector := by
    intro happ
    rw [hs.session.base happ.1, happ.2]
    unfold Dfu.target APP_SLOT_TO_SECTOR
    rw [if_neg (by decide)]
    split <;> decide
  have hwhole : X.app → ∀ i, i < X.data.length → (X.commit_slot f).emmc
      (X.dfu_base_sector + 1 + i / SECTOR_SIZE) (i % SECTOR_SIZE) = X.data.getD i 0 := by
    intro happ i hi
    have hmeta := Nat.lt_of_lt_of_le (hslot happ)
      (Nat.le_trans (Nat.le_add_right _ 1) (Nat.le_add_right _ (i / SECTOR_SIZE)))
    rw [hemmc, update_of_ne (Nat.ne_of_gt hmeta)]
    exact hs.flushed happ (.inl hst) i hi
  refine ⟨hsession, hs.length, fun happ => ?_, fun happ i hi => ?_, hs.buffer,
    fun happ _ => hwhole happ, fun _ => ⟨hself, ?_, rfl, ?_, hlen⟩⟩
  · show bytes_at ((X.commit_slot f).emmc X.dfu_base_sector) 0 _ = X.header
    rw [hemmc, update_of_ne (Nat.ne_of_gt (hslot happ))]
    exact hs.header happ
  · refine hwhole happ i ?_
    have hi : i / SECTOR_SIZE < X.data.length / SECTOR_SIZE := hi
    unfold SECTOR_SIZE at hi
    omega
  · show X.new_slot = X₀.new_slot
    have hne : X.state ≠ DFU_STATE_DONE := by rw [hst]; exact DfuState.noConfusion
    unfold Dfu.new_slot
    rw [(hs.session.kept hne).1]
  · rw [hemmc, update_self, wdt_meta_decode_sealed]
    rfl

theorem step (hs : Stored X₀ X) (hok : X.lands a) (h : X.step a = some Y) : Stored X₀ Y := by
  have hsession : Session X₀ Y := by
    refine hs.session.step ?_ h
    cases a with
    | packet p f => exact hok.1
    | commit f => trivial
  have hmove := Dfu.step_move h
  cases hmove with
  | idle hopen => exact hs
  | refuse hopen => exact hs.abort (Dfu.open_ne hopen).1
  | start hopen hcmd hnew hlen => exact hs.start hopen hnew (hok.2.1 hcmd hnew hlen)
  | start_self hopen hcmd hnew =>
    refine ⟨hsession, fun happ => ?_, fun happ => ?_, fun happ => ?_, fun happ => ?_,
      fun _ h => h.elim DfuState.noConfusion DfuState.noConfusion, DfuState.noConfusion⟩
    · exact nomatch happ.2
    · exact nomatch happ.2
    · exact nomatch happ.2
    · exact nomatch happ.2
  | data hcmd hlen hst =>
    exact hs.data hst hsession hok.1.1 fun hself hfull => hok.2.2.1 hcmd hlen hst hself hfull
  | finish hopen hcmd hcrc =>
    exact hs.finish (Dfu.open_ne hopen).1 fun hu hself => hok.2.2.2 hcmd hcrc hu hself
  | reset hst hself =>
    refine ⟨hsession, hs.length, hs.header, hs.image, hs.buffer,
      fun _ h => h.elim DfuState.noConfusion DfuState.noConfusion, DfuState.noConfusion⟩
  | commit hst hself hok' =>
    obtain ⟨htakes, hlen⟩ := hok hself hok'
    exact hs.commit hst hself htakes hlen hsession
  | reject hst => exact hs.abort (by rw [hst]; exact DfuState.noConfusion)

theorem init (X : Dfu) (img_expected_crc crc_ctx : UInt32) :
    Stored (X.init img_expected_crc crc_ctx) (X.init img_expected_crc crc_ctx) where
  session := .init X _ _
  length h := nomatch h.1
  header h := nomatch h.1
  image h := nomatch h.1
  buffer h := nomatch h.1
  flushed h := nomatch h.1
  committed := DfuState.noConfusion

end Stored

/-- When every write takes effect and all of the image was sent, an app update that is acknowledged has
stored the header and the image that were sent, and the metadata on the card names their slot, on
trial. -/
theorem dfu_ack_means_stored (X Y : Dfu) (img_expected_crc crc_ctx : UInt32)
    (hr : Reach Dfu.step Dfu.lands (X.init img_expected_crc crc_ctx) Y)
    (hstart : Y.started = true) (hdone : Y.state = DFU_STATE_DONE) :
    let sector := APP_SLOT_TO_SECTOR X.new_slot
    let fw_length := (word_at (buffer_of Y.header) 4).toNat
    bytes_at (Y.emmc sector) 0 START_PACKET_SIZE = Y.header ∧
      Y.emmc.image (sector + 1) fw_length = Y.data.take fw_length ∧
      (wdt_meta_decode (Y.emmc EMMC_SECTOR_METADATA)).active_app_slot = X.new_slot ∧
      (wdt_meta_decode (Y.emmc EMMC_SECTOR_METADATA)).app_slot_trial = 1 := by
  have hinv : Stored (X.init img_expected_crc crc_ctx) Y := by
    refine hr.invariant (.init X _ _) ?_
    intro s s' a hs hok h
    exact hs.step hok h
  obtain ⟨hself, hactive, htrial, hmeta, hlen⟩ := hinv.committed hdone
  have happ : Y.app := ⟨hstart, hself⟩
  have hbase : Y.dfu_base_sector = APP_SLOT_TO_SECTOR X.new_slot := by
    rw [hinv.session.base hstart, hself]
    rfl
  dsimp only
  rw [← hbase, hmeta, ← hinv.length happ]
  refine ⟨hinv.header happ, Emmc.image_eq_take (fun i hi => ?_) hlen, hactive, htrial⟩
  exact hinv.flushed happ (.inr hdone) i (Nat.lt_of_lt_of_le hi hlen)

/-- Slot A is active. -/
def dfu_fresh : Dfu := { dfu_blank with wdt_meta := wdt_meta_defaults }

/-- The header of an image of one zero byte. -/
def one_byte_start : DFU_Packet where
  CMD := CMD_START
  LEN := START_PACKET_SIZE
  DATA := buffer_of ([1, 1, 0xD202EF8D].flatMap word_bytes)
  CRC := 0

/-- The image, and the marker behind it. -/
def one_byte_data : DFU_Packet where
  CMD := CMD_DATA
  LEN := 36
  DATA := buffer_of (List.replicate 32 0 ++ word_bytes DFU_APP_MAGIC)
  CRC := 0

/-- The update with this image, up to the packets that are named; every write takes effect. -/
def one_byte_started : Dfu := (dfu_fresh.init 0 0).handle one_byte_start none
def one_byte_received : Dfu := one_byte_started.handle one_byte_data none
def one_byte_finished : Dfu := one_byte_received.handle (zero_packet CMD_FINISH 1) none
def one_byte_committed : Dfu := one_byte_finished.commit none

theorem dfu_ack_means_stored_one_byte :
    one_byte_committed.emmc.image (EMMC_SECTOR_APP_B + 1) 1 = [0] ∧
      (wdt_meta_decode (one_byte_committed.emmc EMMC_SECTOR_METADATA)).active_app_slot =
        APP_SLOT_B := by
  have hfault : ∀ (X : Dfu) (p : DFU_Packet), X.noWrap (.packet p none) →
      X.lands (.packet p none) :=
    fun _ _ h => ⟨h, fun _ _ _ => .inl rfl, fun _ _ _ _ _ => .inl rfl, fun _ _ _ _ => .inl rfl⟩
  have hstarted : Reach Dfu.step Dfu.lands (dfu_fresh.init 0 0) one_byte_started :=
    .step .start (hfault _ one_byte_start ⟨by decide, fun h => absurd h (by decide)⟩) rfl
  have hreceived : Reach Dfu.step Dfu.lands (dfu_fresh.init 0 0) one_byte_received :=
    .step hstarted (hfault _ one_byte_data ⟨by decide, fun _ _ _ => by decide +kernel⟩)
      (Dfu.step_packet (by decide +kernel))
  have hfinished : Reach Dfu.step Dfu.lands (dfu_fresh.init 0 0) one_byte_finished :=
    .step hreceived
      (hfault _ (zero_packet CMD_FINISH 1) ⟨by decide, fun h => absurd h (by decide)⟩)
      (Dfu.step_packet (by decide +kernel))
  have hlands : one_byte_finished.lands (.commit none) :=
    fun _ _ => ⟨.inl rfl, by decide +kernel⟩
  have hcommitted : Reach Dfu.step Dfu.lands (dfu_fresh.init 0 0) one_byte_committed :=
    .step hfinished hlands (Dfu.step_commit (by decide +kernel))
  have hsector : APP_SLOT_TO_SECTOR dfu_fresh.new_slot = EMMC_SECTOR_APP_B := by decide
  have hlength : (word_at (buffer_of one_byte_committed.header) 4).toNat = 1 := by decide +kernel
  have himage : one_byte_committed.data.take 1 = [0] := by decide +kernel
  obtain ⟨-, hstored, hactive, -⟩ := dfu_ack_means_stored dfu_fresh _ 0 0 hcommitted
    (by decide +kernel) (by decide +kernel)
  rw [hsector, hlength, himage] at hstored
  exact ⟨hstored, hactive⟩

/-- The metadata write of the commit fails: the update is acknowledged, but on the card the old slot
stays active, and not on trial. -/
theorem dfu_ack_without_commit :
    (execute Dfu.step anything (dfu_fresh.init 0 0)
      [.packet one_byte_start none, .packet one_byte_data none,
        .packet (zero_packet CMD_FINISH 1) none, .commit (some E_TIMED_OUT)]).map
      (fun Y => (Y.state, Y.tx.getLast?,
        (wdt_meta_decode (Y.emmc EMMC_SECTOR_METADATA)).active_app_slot,
        (wdt_meta_decode (Y.emmc EMMC_SECTOR_METADATA)).app_slot_trial)) =
      some (DFU_STATE_DONE, some DFU_ACK, dfu_fresh.wdt_meta.active_app_slot, 0) := by
  decide +kernel

end Rpitos
