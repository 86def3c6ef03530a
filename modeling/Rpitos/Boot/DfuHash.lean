import Rpitos.Boot.DfuImage

/-!
# Boot.DfuHash

What the CRC check of `CMD_FINISH` compares. `Hashed`: behind a start packet, the expected CRC and the
length are those of its header, and the running CRC is that of the image bytes up to that length.
`dfu_commit_needs_session`: then nothing is committed that was not sent. `dfu_commit_without_session`:
a finish packet that comes first compares two locals that were never set, and can commit an old image.
-/

namespace Rpitos

open Function StatusCode DfuState

section Hash

variable {X : Dfu} {p : DFU_Packet} {f : Option StatusCode}

theorem bytes_at_take (buf : Sector) {n m : Nat} (h : n ≤ m) :
    bytes_at buf 0 n = (bytes_at buf 0 m).take n := by
  unfold bytes_at
  rw [← List.map_take, List.take_range, Nat.min_eq_left h]

theorem Dfu.to_hash_eq {LEN : Nat} (h : X.bytes_hashed + LEN < 2 ^ 32)
    (hle : X.bytes_hashed ≤ X.img_length.toNat) :
    X.to_hash LEN = min LEN (X.img_length.toNat - X.bytes_hashed) := by
  unfold Dfu.to_hash
  rw [show u32 (X.bytes_hashed + LEN) = X.bytes_hashed + LEN from Nat.mod_eq_of_lt h]
  split
  · split <;> omega
  · omega

/-- What `CMD_DATA` hashes. -/
theorem Dfu.accept_data_hash (X : Dfu) (p : DFU_Packet) (f : Option StatusCode) :
    (X.accept_data p f).crc_ctx = crc32_update X.crc_ctx (bytes_at p.DATA 0 (X.to_hash p.LEN)) ∧
      (X.bytes_hashed + X.to_hash p.LEN < 2 ^ 32 →
        (X.accept_data p f).bytes_hashed = X.bytes_hashed + X.to_hash p.LEN) := by
  obtain ⟨emmc, buf, counter, sectors, unwritten, log, hfill⟩ := X.fill_eq p f
  have hn : (X.fill p f).to_hash p.LEN = X.to_hash p.LEN := by
    rw [hfill]
    rfl
  unfold Dfu.accept_data Dfu.hash
  dsimp only
  rw [hn, hfill]
  split
  · exact ⟨rfl, fun h => Nat.mod_eq_of_lt h⟩
  · rename_i h
    rw [show X.to_hash p.LEN = 0 by omega]
    exact ⟨rfl, fun _ => rfl⟩

/-- `CMD_DATA` and `CMD_FINISH` write one sector at most. -/
theorem Dfu.accept_data_emmc_of_ne {s : Nat} (h : s ≠ u32 (X.dfu_base_sector + X.sectors_written)) :
    (X.accept_data p f).emmc s = X.emmc s := by
  obtain ⟨crc, n, heq⟩ := X.accept_data_eq p f
  rw [heq]
  unfold Dfu.fill
  split
  · exact Dfu.write_sector_emmc_of_ne h
  · rfl

theorem Dfu.flush_emmc_of_ne {s : Nat} (h : s ≠ u32 (X.dfu_base_sector + X.sectors_written)) :
    (X.flush f).emmc s = X.emmc s := by
  unfold Dfu.flush
  split
  · exact Dfu.write_sector_emmc_of_ne h
  · rfl

theorem APP_SLOT_TO_SECTOR_metadata (slot : UInt32) :
    EMMC_SECTOR_METADATA < APP_SLOT_TO_SECTOR slot := by
  unfold APP_SLOT_TO_SECTOR
  split <;> decide

end Hash

/-- The header that the session began with. -/
def Dfu.start_pkt (X : Dfu) : StartPacket := StartPacket.of_buffer (buffer_of X.header)

/-- The count of the hashed bytes does not wrap. -/
def Dfu.counts (X : Dfu) : DfuAction → Prop
  | .packet p _ => p.CMD = CMD_DATA → p.LEN % 4 = 0 → X.state = DFU_STATE_RECIEVE_DATA →
      X.bytes_hashed + p.LEN < 2 ^ 32
  | .commit _ => True

/-- `CMD_FINISH` has compared the CRCs. -/
def Dfu.checked (X : Dfu) : Prop :=
  X.state = finishing ∨ X.state = DFU_STATE_DONE ∨ X.state = resetting

/-- The locals of the CRC check against the header and the image bytes. -/
structure Hashed (X : Dfu) : Prop where
  fresh : X.started = false → X.data = [] ∧ X.bytes_hashed = 0 ∧ X.unwritten_sector = false ∧
    X.is_self_update = false ∧ X.state ≠ DFU_STATE_RECIEVE_DATA
  expected : X.started = true → X.img_expected_crc = X.start_pkt.crc
  length : X.started = true → X.img_length = X.start_pkt.fw_length
  hashed : X.started = true → X.bytes_hashed = min X.data.length X.img_length.toNat
  crc : X.started = true → X.crc_ctx = crc32_update crc32_start (X.data.take X.img_length.toNat)
  matched : X.checked → crc32_finish X.crc_ctx = X.img_expected_crc

namespace Hashed

variable {X Y : Dfu} {a : DfuAction} {p : DFU_Packet} {f : Option StatusCode} {sector : Nat}

theorem started_of (h : Hashed X) (hst : X.state = DFU_STATE_RECIEVE_DATA) : X.started = true := by
  cases hstart : X.started with
  | true => rfl
  | false => exact ((h.fresh hstart).2.2.2.2 hst).elim

theorem abort (h : Hashed X) : Hashed X.abort where
  fresh hst :=
    have ⟨hd, hb, hu, hself, _⟩ := h.fresh hst
    ⟨hd, hb, hu, hself, DfuState.noConfusion⟩
  expected := h.expected
  length := h.length
  hashed := h.hashed
  crc := h.crc
  matched hc := hc.elim DfuState.noConfusion fun hc => hc.elim DfuState.noConfusion
    DfuState.noConfusion

theorem begin_session (h : Hashed X) (hnew : X.started = false) (self : Bool) :
    Hashed (X.begin_session p sector self f) := by
  obtain ⟨hd, hb, -, -, -⟩ := h.fresh hnew
  refine ⟨fun hst => (nomatch hst), fun _ => rfl, fun _ => rfl, fun _ => ?_, fun _ => ?_,
    fun hc => ?_⟩
  · show X.bytes_hashed = min X.data.length _
    rw [hb, hd, List.length_nil, Nat.zero_min]
  · show crc32_start = crc32_update crc32_start (X.data.take _)
    rw [hd, List.take_nil]
    rfl
  · exact hc.elim DfuState.noConfusion fun hc => hc.elim DfuState.noConfusion DfuState.noConfusion

theorem data (h : Hashed X) (hst : X.state = DFU_STATE_RECIEVE_DATA)
    (hcount : X.bytes_hashed + p.LEN < 2 ^ 32) : Hashed (X.accept_data p f) := by
  have hstart := h.started_of hst
  have hhashed := h.hashed hstart
  have hto := X.to_hash_eq hcount (by omega)
  obtain ⟨hcrc, hbytes⟩ := X.accept_data_hash p f
  have hbytes := hbytes (by omega)
  obtain ⟨crc, n, heq⟩ := X.accept_data_eq p f
  obtain ⟨_, _, _, _, _, _, hfill⟩ := X.fill_eq p f
  rw [heq] at hcrc hbytes
  have hcrc : crc = _ := hcrc
  have hbytes : n = _ := hbytes
  rw [heq, hfill]
  refine ⟨fun hs => (nomatch hstart.symm.trans hs), h.expected, h.length, fun _ => ?_, fun _ => ?_,
    fun hc => ?_⟩
  · show n = min (X.data ++ bytes_at p.DATA 0 p.LEN).length X.img_length.toNat
    rw [hbytes, List.length_append, show (bytes_at p.DATA 0 p.LEN).length = p.LEN by simp [bytes_at]]
    omega
  · show crc = crc32_update crc32_start ((X.data ++ bytes_at p.DATA 0 p.LEN).take X.img_length.toNat)
    have htake : bytes_at p.DATA 0 (X.to_hash p.LEN) =
        (bytes_at p.DATA 0 p.LEN).take (X.img_length.toNat - X.data.length) := by
      rw [bytes_at_take p.DATA (show X.to_hash p.LEN ≤ p.LEN by omega), hto,
        List.take_eq_take_iff]
      simp only [bytes_at, List.length_map, List.length_range]
      omega
    rw [hcrc, h.crc hstart, crc32_update_append, List.take_append, htake]
  · have hc : X.checked := hc
    unfold Dfu.checked at hc
    rw [hst] at hc
    exact hc.elim DfuState.noConfusion fun hc => hc.elim DfuState.noConfusion DfuState.noConfusion

theorem finish (h : Hashed X) (hcrc : crc32_finish X.crc_ctx = X.img_expected_crc) :
    Hashed { X.flush f with state := finishing } := by
  obtain ⟨_, _, _, heq⟩ := X.flush_eq f
  rw [heq]
  refine ⟨fun hst => ?_, h.expected, h.length, h.hashed, h.crc, fun _ => hcrc⟩
  obtain ⟨hd, hb, hu, hself, -⟩ := h.fresh hst
  exact ⟨hd, hb, hu, hself, DfuState.noConfusion⟩

theorem step (h : Hashed X) (hok : X.counts a) (hX : X.step a = some Y) : Hashed Y := by
  have hmove := Dfu.step_move hX
  cases hmove with
  | idle _ => exact h
  | refuse _ => exact h.abort
  | start _ _ hnew => exact h.begin_session hnew false
  | start_self _ _ hnew => exact h.begin_session hnew true
  | data hcmd hlen hst => exact h.data hst (hok hcmd hlen hst)
  | finish _ _ hcrc => exact h.finish hcrc
  | reset hst hself =>
    refine ⟨fun hnew => ?_, h.expected, h.length, h.hashed, h.crc, fun _ => h.matched (.inl hst)⟩
    exact nomatch hself.symm.trans (h.fresh hnew).2.2.2.1
  | commit hst _ _ =>
    refine ⟨fun hnew => ?_, h.expected, h.length, h.hashed, h.crc, fun _ => h.matched (.inl hst)⟩
    obtain ⟨hd, hb, hu, hself, -⟩ := h.fresh hnew
    exact ⟨hd, hb, hu, hself, DfuState.noConfusion⟩
  | reject _ => exact h.abort

theorem init (X : Dfu) (img_expected_crc crc_ctx : UInt32) :
    Hashed (X.init img_expected_crc crc_ctx) where
  fresh _ := ⟨rfl, rfl, rfl, rfl, DfuState.noConfusion⟩
  expected h := nomatch h
  length h := nomatch h
  hashed h := nomatch h
  crc h := nomatch h
  matched hc := hc.elim DfuState.noConfusion fun hc => hc.elim DfuState.noConfusion
    DfuState.noConfusion

/-- What was compared is the header's CRC and that of the image. -/
theorem image_crc (h : Hashed X) (hstart : X.started = true) (hc : X.checked) :
    X.start_pkt.crc = crc32 (X.data.take X.start_pkt.fw_length.toNat) := by
  rw [← h.expected hstart, ← h.length hstart, ← h.matched hc, h.crc hstart]
  rfl

end Hashed

/-- The hashed bytes are counted, no image byte goes over the metadata, and nothing valid is left in
the slot of a session that has not begun. -/
def Dfu.sound (X : Dfu) : DfuAction → Prop
  | .packet p f => X.counts (.packet p f) ∧
      (p.CMD = CMD_DATA → p.LEN % 4 = 0 → X.state = DFU_STATE_RECIEVE_DATA →
        SECTOR_SIZE ≤ X.current_sector_counter + p.LEN →
        u32 (X.dfu_base_sector + X.sectors_written) ≠ EMMC_SECTOR_METADATA) ∧
      (p.CMD = CMD_FINISH → crc32_finish X.crc_ctx = X.img_expected_crc →
        X.unwritten_sector = true →
        u32 (X.dfu_base_sector + X.sectors_written) ≠ EMMC_SECTOR_METADATA)
  | .commit _ => X.started = false → ¬X.slot_ok

/-- The CRC check means what it says, and only a session that has begun changes the metadata. -/
structure Sound (X₀ X : Dfu) : Prop where
  hashed : Hashed X
  metadata : X.state ≠ DFU_STATE_DONE → X.emmc EMMC_SECTOR_METADATA = X₀.emmc EMMC_SECTOR_METADATA
  begun : X.state = DFU_STATE_DONE ∨ X.state = resetting → X.started = true

namespace Sound

variable {X₀ X Y : Dfu} {a : DfuAction}

theorem abort (h : Sound X₀ X) (hne : X.state ≠ DFU_STATE_DONE) : Sound X₀ X.abort where
  hashed := h.hashed.abort
  metadata _ := h.metadata hne
  begun hc := hc.elim DfuState.noConfusion DfuState.noConfusion

theorem begin_session (h : Sound X₀ X) (hopen : X.open_session = true) (hnew : X.started = false)
    {sector : Nat} (hsector : EMMC_SECTOR_METADATA ≠ sector) (self : Bool) {p : DFU_Packet}
    {f : Option StatusCode} : Sound X₀ (X.begin_session p sector self f) where
  hashed := h.hashed.begin_session hnew self
  metadata _ := (Dfu.write_sector_emmc_of_ne hsector).trans (h.metadata (Dfu.open_ne hopen).1)
  begun _ := rfl

theorem step (h : Sound X₀ X) (hok : X.sound a) (hX : X.step a = some Y) : Sound X₀ Y := by
  have hhashed : Hashed Y := by
    refine h.hashed.step ?_ hX
    cases a with
    | packet p f => exact hok.1
    | commit f => trivial
  have hmove := Dfu.step_move hX
  cases hmove with
  | idle _ => exact h
  | refuse hopen => exact h.abort (Dfu.open_ne hopen).1
  | start hopen _ hnew =>
    exact h.begin_session hopen hnew (Nat.ne_of_lt (APP_SLOT_TO_SECTOR_metadata _)) false
  | start_self hopen _ hnew => exact h.begin_session hopen hnew (by decide) true
  | @data p f hcmd hlen hst =>
    have hne : X.state ≠ DFU_STATE_DONE := by rw [hst]; exact DfuState.noConfusion
    refine ⟨hhashed, fun _ => ?_, fun _ => hhashed.started_of ?_⟩
    · by_cases hfull : SECTOR_SIZE ≤ X.current_sector_counter + p.LEN
      · have hsector := hok.2.1 hcmd hlen hst hfull
        rw [Dfu.accept_data_emmc_of_ne hsector.symm]
        exact h.metadata hne
      · obtain ⟨crc, n, heq⟩ := X.accept_data_eq p f
        rw [heq, Dfu.fill_part (by omega)]
        exact h.metadata hne
    · obtain ⟨crc, n, heq⟩ := X.accept_data_eq p f
      obtain ⟨_, _, _, _, _, _, hfill⟩ := X.fill_eq p f
      rw [heq, hfill]
      exact hst
  | @finish p f hopen hcmd hcrc =>
    refine ⟨hhashed, fun _ => ?_, fun hc => hc.elim DfuState.noConfusion DfuState.noConfusion⟩
    rw [← h.metadata (Dfu.open_ne hopen).1]
    cases hu : X.unwritten_sector with
    | true => exact Dfu.flush_emmc_of_ne (hok.2.2 hcmd hcrc hu).symm
    | false =>
      unfold Dfu.flush
      rw [if_neg (by rw [hu]; exact Bool.false_ne_true)]
  | reset hst hself =>
    refine ⟨hhashed, fun _ => h.metadata ?_, fun _ => ?_⟩
    · rw [hst]
      exact DfuState.noConfusion
    · cases hstart : X.started with
      | true => exact hstart
      | false => exact nomatch hself.symm.trans (h.hashed.fresh hstart).2.2.2.1
  | commit hst hself hslot =>
    refine ⟨hhashed, fun hne => (hne rfl).elim, fun _ => ?_⟩
    cases hstart : X.started with
    | true => exact hstart
    | false => exact (hok hstart hslot).elim
  | reject hst => exact h.abort (by rw [hst]; exact DfuState.noConfusion)

end Sound

/-- A commit, or the answer to a finished bootloader update, needs a start packet in the same session,
and the CRC in its header is that of the image bytes that followed. -/
theorem dfu_commit_needs_session (X Y : Dfu) (img_expected_crc crc_ctx : UInt32)
    (hr : Reach Dfu.step Dfu.sound (X.init img_expected_crc crc_ctx) Y)
    (hc : Y.state = resetting ∨ (wdt_meta_decode (Y.emmc EMMC_SECTOR_METADATA)).active_app_slot ≠
      (wdt_meta_decode (X.emmc EMMC_SECTOR_METADATA)).active_app_slot) :
    Y.started = true ∧
      Y.start_pkt.crc = crc32 (Y.data.take Y.start_pkt.fw_length.toNat) := by
  have hsound : Sound (X.init img_expected_crc crc_ctx) Y := by
    refine hr.invariant ⟨.init X _ _, fun _ => rfl, ?_⟩ ?_
    · exact fun hc => hc.elim DfuState.noConfusion DfuState.noConfusion
    · intro s s' a hs hok h
      exact hs.step hok h
  have hdone : Y.state = DFU_STATE_DONE ∨ Y.state = resetting := by
    rcases hc with hc | hc
    · exact .inr hc
    · refine .inl (Decidable.not_not.mp fun hne => hc ?_)
      rw [hsound.metadata hne]
      rfl
  have hstart := hsound.begun hdone
  exact ⟨hstart, hsound.hashed.image_crc hstart (.inr hdone)⟩

theorem dfu_commit_needs_session_one_byte :
    one_byte_committed.started = true ∧
      one_byte_committed.start_pkt.crc = crc32 (one_byte_committed.data.take 1) := by
  have hstarted : Reach Dfu.step Dfu.sound (dfu_fresh.init 0 0) one_byte_started :=
    .step .start (a := .packet one_byte_start none)
      ⟨fun h => absurd h (by decide), fun h => absurd h (by decide), fun h => absurd h (by decide)⟩ rfl
  have hreceived : Reach Dfu.step Dfu.sound (dfu_fresh.init 0 0) one_byte_received :=
    .step hstarted (a := .packet one_byte_data none)
      ⟨fun _ _ _ => by decide +kernel, fun _ _ _ => by decide +kernel, fun h => absurd h (by decide)⟩
      (Dfu.step_packet (by decide +kernel))
  have hfinished : Reach Dfu.step Dfu.sound (dfu_fresh.init 0 0) one_byte_finished :=
    .step hreceived (a := .packet (zero_packet CMD_FINISH 1) none)
      ⟨fun h => absurd h (by decide), fun h => absurd h (by decide), fun _ _ _ => by decide +kernel⟩
      (Dfu.step_packet (by decide +kernel))
  have hcommitted : Reach Dfu.step Dfu.sound (dfu_fresh.init 0 0) one_byte_committed :=
    .step hfinished (a := .commit none) (fun h => absurd h (by decide +kernel))
      (Dfu.step_commit (by decide +kernel))
  have hlength : one_byte_committed.start_pkt.fw_length.toNat = 1 := by decide +kernel
  have hneeds := dfu_commit_needs_session dfu_fresh _ 0 0 hcommitted (.inr (by decide +kernel))
  rw [hlength] at hneeds
  exact hneeds

/-- A finish packet comes first, the two locals happen to match, and the other slot holds the image of
an earlier update: it becomes active. -/
theorem dfu_commit_without_session :
    let X := { dfu_fresh with emmc := one_byte_finished.emmc }
    (execute Dfu.step anything (X.init (crc32_finish 0) 0)
      [.packet (zero_packet CMD_FINISH 1) none, .commit none]).map
      (fun Y => (Y.started, Y.state, (wdt_meta_decode (Y.emmc EMMC_SECTOR_METADATA)).active_app_slot)) =
        some (false, DFU_STATE_DONE, APP_SLOT_B) ∧
      (wdt_meta_decode (X.emmc EMMC_SECTOR_METADATA)).active_app_slot = APP_SLOT_A := by
  decide +kernel

end Rpitos
