import Rpitos.Lib.Reach
import Rpitos.Boot.DfuReceive

/-!
# Boot.DfuRuns

A session over runs. `DfuMove` says what a step can do. `Session` is the bookkeeping that every step
keeps while packets fit the parser's buffer and the sector number does not wrap: how many sectors the
image bytes have filled, how much is still in the buffer, and that only the sectors in the log have
changed. `dfu_stays_in_slot`: while the image fits, the log names only sectors of the target slot.
`dfu_leaves_slot`: nothing in the code makes it fit.
-/

namespace Rpitos

open Function StatusCode DfuState

/-- A step of a session. -/
inductive DfuMove (X : Dfu) : DfuAction → Dfu → Prop
  | idle {p : DFU_Packet} {f : Option StatusCode} (hopen : X.open_session) :
      DfuMove X (.packet p f) X
  | refuse {p : DFU_Packet} {f : Option StatusCode} (hopen : X.open_session) :
      DfuMove X (.packet p f) X.abort
  | start {p : DFU_Packet} {f : Option StatusCode} (hopen : X.open_session)
      (hcmd : p.CMD = CMD_START) (hnew : X.started = false) (hlen : p.LEN = START_PACKET_SIZE) :
      DfuMove X (.packet p f)
        (X.begin_session p (APP_SLOT_TO_SECTOR X.new_slot) false f)
  | start_self {p : DFU_Packet} {f : Option StatusCode} (hopen : X.open_session)
      (hcmd : p.CMD = CMD_START_SELF_UPDATE) (hnew : X.started = false)
      (hlen : p.LEN = START_PACKET_SIZE) :
      DfuMove X (.packet p f) (X.begin_session p EMMC_SECTOR_BOOTLOADER true f)
  | data {p : DFU_Packet} {f : Option StatusCode} (hcmd : p.CMD = CMD_DATA)
      (hlen : p.LEN % 4 = 0) (hst : X.state = DFU_STATE_RECIEVE_DATA) :
      DfuMove X (.packet p f) (X.accept_data p f)
  | finish {p : DFU_Packet} {f : Option StatusCode} (hopen : X.open_session)
      (hcmd : p.CMD = CMD_FINISH) (hcrc : crc32_finish X.crc_ctx = X.img_expected_crc) :
      DfuMove X (.packet p f) { X.flush f with state := finishing }
  | reset {f : Option StatusCode} (hst : X.state = finishing) (hself : X.is_self_update = true) :
      DfuMove X (.commit f) { X.answer DFU_ACK with state := resetting }
  | commit {f : Option StatusCode} (hst : X.state = finishing) (hself : X.is_self_update = false)
      (hok : X.slot_ok) : DfuMove X (.commit f) (X.commit_slot f)
  | reject {f : Option StatusCode} (hst : X.state = finishing) : DfuMove X (.commit f) X.abort

section Moves

variable {X Y : Dfu} {a : DfuAction}

theorem Dfu.step_packet {p : DFU_Packet} {f : Option StatusCode} (h : X.open_session = true) :
    X.step (.packet p f) = some (X.handle p f) := if_pos h

theorem Dfu.step_commit {f : Option StatusCode} (h : X.state = finishing) :
    X.step (.commit f) = some (X.commit f) := if_pos h

theorem Dfu.step_move (h : X.step a = some Y) : DfuMove X a Y := by
  cases a with
  | packet p f =>
    obtain ⟨hopen, h⟩ := Option.ite_none_right_eq_some.mp h
    cases h
    unfold Dfu.handle
    split
    · unfold Dfu.start
      split
      · exact .refuse hopen
      · split
        · exact .refuse hopen
        · rename_i hcmd hnew hlen
          exact .start hopen hcmd (by simpa using hnew) (not_not.mp hlen)
    · split
      · unfold Dfu.start
        split
        · exact .refuse hopen
        · split
          · exact .refuse hopen
          · rename_i hcmd hnew hlen
            exact .start_self hopen hcmd (by simpa using hnew) (not_not.mp hlen)
      · split
        · unfold Dfu.receive_data
          split
          · exact .refuse hopen
          · split
            · rename_i hcmd hlen hst
              exact .data hcmd (not_not.mp hlen) hst
            · exact .idle hopen
        · split
          · exact .refuse hopen
          · split
            · unfold Dfu.finish
              split
              · exact .refuse hopen
              · rename_i hcmd hcrc
                exact .finish hopen hcmd (not_not.mp hcrc)
            · exact .idle hopen
  | commit f =>
    obtain ⟨hst, h⟩ := Option.ite_none_right_eq_some.mp h
    cases h
    unfold Dfu.commit
    split
    · rename_i hself
      exact .reset hst hself
    · rename_i hself
      split
      · rename_i hok
        exact .commit hst (by simpa using hself) hok
      · exact .reject hst

theorem Dfu.open_ne (h : X.open_session = true) :
    X.state ≠ DFU_STATE_DONE ∧ X.state ≠ finishing := by
  unfold Dfu.open_session at h
  rcases of_decide_eq_true h with h | h <;> rw [h] <;> exact ⟨DfuState.noConfusion, DfuState.noConfusion⟩

end Moves

/-- The header sector of the slot that a session writes. -/
def Dfu.target (X₀ : Dfu) (self_update : Bool) : Nat :=
  if self_update then EMMC_SECTOR_BOOTLOADER else APP_SLOT_TO_SECTOR X₀.new_slot

def slot_size (self_update : Bool) : Nat :=
  if self_update then EMMC_SECTOR_SIZE_BOOTLOADER else EMMC_SECTOR_SIZE_APP

/-- Packets fit the parser's buffer, and the sector number does not wrap. -/
def Dfu.noWrap (X : Dfu) : DfuAction → Prop
  | .packet p _ => p.LEN ≤ MAX_DATA_SIZE_BYTES ∧
      (p.CMD = CMD_DATA → p.LEN % 4 = 0 → X.state = DFU_STATE_RECIEVE_DATA →
        X.dfu_base_sector + 2 + (X.data.length + p.LEN) / SECTOR_SIZE < 2 ^ 32)
  | .commit _ => True

/-- The bookkeeping of a session that began at `X₀`. -/
structure Session (X₀ X : Dfu) : Prop where
  fresh : X.started = false → X.written = [] ∧ X.unwritten_sector = false ∧ X.data = [] ∧
    X.is_self_update = false ∧ X.state ≠ DFU_STATE_RECIEVE_DATA
  base : X.started = true → X.dfu_base_sector = X₀.target X.is_self_update
  sectors : X.started = true → X.sectors_written = 1 + X.data.length / SECTOR_SIZE
  counter : X.current_sector_counter = X.data.length % SECTOR_SIZE
  /-- Nothing is left to write only between two sectors. -/
  pending : X.unwritten_sector = false → X.current_sector_counter = 0
  room : X.dfu_base_sector + 2 + X.data.length / SECTOR_SIZE < 2 ^ 32
  /-- Before the commit, only the sectors in the log have changed. -/
  kept : X.state ≠ DFU_STATE_DONE → X.wdt_meta = X₀.wdt_meta ∧ X.boot_flags = X₀.boot_flags ∧
    ∀ s, s ∉ X.written → X.emmc s = X₀.emmc s

section Session

variable {X₀ X Y : Dfu} {a : DfuAction} {p : DFU_Packet} {f : Option StatusCode} {sector s : Nat}

theorem Dfu.write_sector_emmc_of_ne (h : s ≠ sector) :
    (X.write_sector sector f).emmc s = X.emmc s := by
  unfold Dfu.write_sector emmc_write_blocks
  split
  · rfl
  · cases f with
    | none => exact update_of_ne h ..
    | some e => rfl

theorem Dfu.mem_write_sector (h : s ∈ (X.write_sector sector f).written) :
    s ∈ X.written ∨ s = sector := by
  have h : s ∈ (if (emmc_write_blocks X.emmc sector X.current_sector f).1 = E_OK
      then X.written ++ [sector] else X.written) := h
  split at h
  · simpa using h
  · exact .inl h

/-- A sector that the log does not name has not changed. -/
theorem Dfu.write_sector_kept {E : Emmc} (hk : ∀ s, s ∉ X.written → X.emmc s = E s) (s : Nat)
    (hs : s ∉ (X.write_sector sector f).written) : (X.write_sector sector f).emmc s = E s := by
  revert hs
  unfold Dfu.write_sector emmc_write_blocks
  split
  · exact hk s
  · cases f with
    | none =>
      intro hs
      simp only [if_true, List.mem_append, List.mem_singleton, not_or] at hs
      exact (update_of_ne hs.2 ..).trans (hk s hs.1)
    | some e =>
      intro hs
      refine hk s fun hm => hs ?_
      dsimp only
      split
      · exact List.mem_append_left _ hm
      · exact hm

/-- The part of `CMD_DATA` that fills the sector and writes it, the rest of the packet carried over. -/
def Dfu.spill (X : Dfu) (p : DFU_Packet) (f : Option StatusCode) : Dfu :=
  let n := SECTOR_SIZE - X.current_sector_counter
  let Y := { X with
    current_sector := copy_bytes X.current_sector X.current_sector_counter p.DATA n }
  let Y := Y.write_sector (u32 (X.dfu_base_sector + X.sectors_written)) f
  { Y with
    current_sector := copy_bytes Y.current_sector 0 (fun i => p.DATA (u32 (n + i)))
      (X.current_sector_counter + p.LEN - SECTOR_SIZE)
    sectors_written := u32 (X.sectors_written + 1)
    unwritten_sector := X.current_sector_counter + p.LEN - SECTOR_SIZE ≠ 0
    current_sector_counter := X.current_sector_counter + p.LEN - SECTOR_SIZE }

theorem Dfu.spill_counter : (X.spill p f).current_sector_counter =
    X.current_sector_counter + p.LEN - SECTOR_SIZE := by
  unfold Dfu.spill
  rfl

theorem Dfu.fill_full (hc : X.current_sector_counter < SECTOR_SIZE)
    (hlen : p.LEN ≤ MAX_DATA_SIZE_BYTES) (hfull : SECTOR_SIZE ≤ X.current_sector_counter + p.LEN) :
    X.fill p f = X.spill p f := by
  have hn : u32 (p.LEN + (2 ^ 32 - (X.current_sector_counter + p.LEN - SECTOR_SIZE))) =
      SECTOR_SIZE - X.current_sector_counter := by
    unfold u32
    unfold SECTOR_SIZE at hc hfull ⊢
    unfold MAX_DATA_SIZE_BYTES at hlen
    omega
  unfold Dfu.fill Dfu.spill
  rw [if_pos hfull]
  dsimp only
  rw [hn]
  rfl

/-- `CMD_DATA` when the packet does not fill the sector. -/
theorem Dfu.fill_part (hpart : X.current_sector_counter + p.LEN < SECTOR_SIZE) :
    X.fill p f = { X with
      unwritten_sector := true
      current_sector :=
        copy_bytes X.current_sector X.current_sector_counter p.DATA p.LEN
      current_sector_counter := X.current_sector_counter + p.LEN } := by
  unfold Dfu.fill
  rw [if_neg (by omega)]

/-- Filling sectors changes only the card, the sector buffer and what is counted of it. -/
theorem Dfu.fill_eq (X : Dfu) (p : DFU_Packet) (f : Option StatusCode) :
    ∃ emmc buf counter sectors unwritten log, X.fill p f = { X with
      emmc := emmc, current_sector := buf, current_sector_counter := counter
      sectors_written := sectors, unwritten_sector := unwritten, written := log } := by
  unfold Dfu.fill
  split
  · exact ⟨_, _, _, _, _, _, rfl⟩
  · exact ⟨_, _, _, _, _, _, rfl⟩

/-- Hashing changes only the CRC and the count of hashed bytes. -/
theorem Dfu.accept_data_eq (X : Dfu) (p : DFU_Packet) (f : Option StatusCode) :
    ∃ crc n, X.accept_data p f = { X.fill p f with
      crc_ctx := crc, bytes_hashed := n, data := X.data ++ bytes_at p.DATA 0 p.LEN
      tx := X.tx ++ [DFU_ACK] } := by
  obtain ⟨_, _, _, _, _, _, hfill⟩ := X.fill_eq p f
  unfold Dfu.accept_data Dfu.hash Dfu.answer
  rw [hfill]
  dsimp only
  split
  · exact ⟨_, _, rfl⟩
  · exact ⟨_, _, rfl⟩

/-- The write of the last sector changes only the card and the sector buffer. -/
theorem Dfu.flush_eq (X : Dfu) (f : Option StatusCode) : ∃ emmc buf log,
    X.flush f = { X with emmc := emmc, current_sector := buf, written := log } := by
  unfold Dfu.flush
  split
  · exact ⟨_, _, _, rfl⟩
  · exact ⟨_, _, _, rfl⟩

theorem Dfu.target_room (X₀ : Dfu) (self_update : Bool) :
    EMMC_FIRMWARE_FLOOR ≤ X₀.target self_update ∧ X₀.target self_update < 2 ^ 31 := by
  unfold Dfu.target APP_SLOT_TO_SECTOR
  split
  · decide
  · split <;> decide

namespace Session

theorem counter_lt (hs : Session X₀ X) : X.current_sector_counter < SECTOR_SIZE := by
  rw [hs.counter]
  exact Nat.mod_lt _ (by decide)

theorem started_of (hs : Session X₀ X) (h : X.state = DFU_STATE_RECIEVE_DATA) :
    X.started = true := by
  cases hst : X.started with
  | true => rfl
  | false => exact ((hs.fresh hst).2.2.2.2 h).elim

/-- The sector that `CMD_DATA` and `CMD_FINISH` write. -/
theorem next_sector (hs : Session X₀ X) (hst : X.started = true) :
    u32 (X.dfu_base_sector + X.sectors_written) =
      X.dfu_base_sector + 1 + X.data.length / SECTOR_SIZE := by
  rw [hs.sectors hst, ← Nat.add_assoc]
  exact Nat.mod_eq_of_lt (by have := hs.room; omega)

theorem abort (hs : Session X₀ X) (hne : X.state ≠ DFU_STATE_DONE) : Session X₀ X.abort where
  fresh h :=
    have ⟨hw, hu, hd, hself, _⟩ := hs.fresh h
    ⟨hw, hu, hd, hself, DfuState.noConfusion⟩
  base := hs.base
  sectors := hs.sectors
  counter := hs.counter
  pending := hs.pending
  room := hs.room
  kept _ := hs.kept hne

theorem begin_session (hs : Session X₀ X) (hnew : X.started = false)
    (hne : X.state ≠ DFU_STATE_DONE) {self : Bool} (hsec : sector = X₀.target self) :
    Session X₀ (X.begin_session p sector self f) := by
  obtain ⟨hw, hu, hd, hself, -⟩ := hs.fresh hnew
  refine ⟨fun h => (nomatch h), fun _ => hsec, fun _ => ?_, hs.counter, hs.pending, ?_, fun _ => ?_⟩
  · show 1 = 1 + X.data.length / SECTOR_SIZE
    rw [hd]
    rfl
  · show sector + 2 + X.data.length / SECTOR_SIZE < 2 ^ 32
    have htarget := (X₀.target_room self).2
    rw [hd, hsec, List.length_nil, Nat.zero_div]
    omega
  · obtain ⟨hm, hb, hk⟩ := hs.kept hne
    exact ⟨hm, hb, Dfu.write_sector_kept hk⟩

theorem data (hs : Session X₀ X) (hst : X.state = DFU_STATE_RECIEVE_DATA)
    (hlen : p.LEN ≤ MAX_DATA_SIZE_BYTES)
    (hroom : X.dfu_base_sector + 2 + (X.data.length + p.LEN) / SECTOR_SIZE < 2 ^ 32) :
    Session X₀ (X.accept_data p f) := by
  have hstart := hs.started_of hst
  have hne : X.state ≠ DFU_STATE_DONE := by rw [hst]; exact DfuState.noConfusion
  obtain ⟨hm, hb, hk⟩ := hs.kept hne
  have hsz : (X.data ++ bytes_at p.DATA 0 p.LEN).length = X.data.length + p.LEN := by
    simp [bytes_at]
  have hcounter := hs.counter
  have hsectors := hs.sectors hstart
  have hr := hs.room
  obtain ⟨crc, n, heq⟩ := X.accept_data_eq p f
  rw [heq]
  by_cases hfull : SECTOR_SIZE ≤ X.current_sector_counter + p.LEN
  · rw [Dfu.fill_full hs.counter_lt hlen hfull]
    refine ⟨fun h => ?_, hs.base, fun _ => ?_, ?_, fun h => ?_, ?_, fun _ => ⟨hm, hb, ?_⟩⟩
    · exact nomatch hstart.symm.trans h
    · show u32 (X.sectors_written + 1) = 1 + (X.data ++ bytes_at p.DATA 0 p.LEN).length / SECTOR_SIZE
      rw [hsz, hsectors]
      unfold u32
      unfold SECTOR_SIZE at *
      unfold MAX_DATA_SIZE_BYTES at hlen
      omega
    · show X.current_sector_counter + p.LEN - SECTOR_SIZE =
        (X.data ++ bytes_at p.DATA 0 p.LEN).length % SECTOR_SIZE
      rw [hsz]
      unfold SECTOR_SIZE at *
      unfold MAX_DATA_SIZE_BYTES at hlen
      omega
    · dsimp only at h ⊢
      simpa only [Dfu.spill, ne_eq, decide_not, Bool.not_eq_false', decide_eq_true_eq] using h
    · show X.dfu_base_sector + 2 + (X.data ++ bytes_at p.DATA 0 p.LEN).length / SECTOR_SIZE < 2 ^ 32
      rw [hsz]
      exact hroom
    · exact Dfu.write_sector_kept hk
  · rw [Dfu.fill_part (by omega)]
    have hdiv : (X.data.length + p.LEN) / SECTOR_SIZE = X.data.length / SECTOR_SIZE := by
      unfold SECTOR_SIZE at *
      omega
    refine ⟨fun h => ?_, hs.base, fun _ => ?_, ?_, fun h => (nomatch h), ?_, fun _ => ⟨hm, hb, hk⟩⟩
    · exact nomatch hstart.symm.trans h
    · show X.sectors_written = 1 + (X.data ++ bytes_at p.DATA 0 p.LEN).length / SECTOR_SIZE
      rw [hsz, hdiv]
      exact hsectors
    · show X.current_sector_counter + p.LEN = (X.data ++ bytes_at p.DATA 0 p.LEN).length % SECTOR_SIZE
      rw [hsz]
      unfold SECTOR_SIZE at *
      omega
    · show X.dfu_base_sector + 2 + (X.data ++ bytes_at p.DATA 0 p.LEN).length / SECTOR_SIZE < 2 ^ 32
      rw [hsz, hdiv]
      exact hr

theorem finish (hs : Session X₀ X) (hne : X.state ≠ DFU_STATE_DONE) :
    Session X₀ { X.flush f with state := finishing } := by
  obtain ⟨hm, hb, hk⟩ := hs.kept hne
  unfold Dfu.flush
  split
  · rename_i hu
    refine ⟨fun h => ?_, hs.base, hs.sectors, hs.counter, fun h => ?_, hs.room,
      fun _ => ⟨hm, hb, Dfu.write_sector_kept hk⟩⟩
    · exact nomatch hu.symm.trans (hs.fresh h).2.1
    · exact nomatch hu.symm.trans h
  · exact ⟨fun h => have ⟨hw, hu, hd, hself, _⟩ := hs.fresh h
      ⟨hw, hu, hd, hself, DfuState.noConfusion⟩,
      hs.base, hs.sectors, hs.counter, hs.pending, hs.room, fun _ => ⟨hm, hb, hk⟩⟩

/-- Every step keeps the bookkeeping. -/
theorem step (hs : Session X₀ X) (hok : X.noWrap a) (h : X.step a = some Y) : Session X₀ Y := by
  have hmove := Dfu.step_move h
  cases hmove with
  | idle hopen => exact hs
  | refuse hopen => exact hs.abort (Dfu.open_ne hopen).1
  | start hopen _ hnew =>
    have hne := (Dfu.open_ne hopen).1
    refine hs.begin_session hnew hne ?_
    unfold Dfu.new_slot
    rw [(hs.kept hne).1]
    rfl
  | start_self hopen _ hnew => exact hs.begin_session hnew (Dfu.open_ne hopen).1 rfl
  | data hcmd hlen hst => exact hs.data hst hok.1 (hok.2 hcmd hlen hst)
  | finish hopen => exact hs.finish (Dfu.open_ne hopen).1
  | reset hst hself =>
    have hne : X.state ≠ DFU_STATE_DONE := by rw [hst]; exact DfuState.noConfusion
    exact ⟨fun h => have ⟨hw, hu, hd, hself, _⟩ := hs.fresh h
      ⟨hw, hu, hd, hself, DfuState.noConfusion⟩,
      hs.base, hs.sectors, hs.counter, hs.pending, hs.room, fun _ => hs.kept hne⟩
  | commit hst _ _ =>
    exact ⟨fun h => have ⟨hw, hu, hd, hself, _⟩ := hs.fresh h
      ⟨hw, hu, hd, hself, DfuState.noConfusion⟩,
      hs.base, hs.sectors, hs.counter, hs.pending, hs.room, fun h => (h rfl).elim⟩
  | reject hst =>
    have hne : X.state ≠ DFU_STATE_DONE := by rw [hst]; exact DfuState.noConfusion
    exact hs.abort hne

/-- A session at its begin. -/
theorem init (X : Dfu) (img_expected_crc crc_ctx : UInt32) :
    Session (X.init img_expected_crc crc_ctx) (X.init img_expected_crc crc_ctx) where
  fresh _ := ⟨rfl, rfl, rfl, rfl, DfuState.noConfusion⟩
  base h := nomatch h
  sectors h := nomatch h
  counter := rfl
  pending _ := rfl
  room := (by decide : 0 + 2 + 0 / SECTOR_SIZE < 2 ^ 32)
  kept _ := ⟨rfl, rfl, fun _ _ => rfl⟩

end Session

/-- Packets fit the parser's buffer, and no image byte is accepted for which the slot has no sector. -/
def Dfu.fits (X : Dfu) : DfuAction → Prop
  | .packet p _ => p.LEN ≤ MAX_DATA_SIZE_BYTES ∧
      (p.CMD = CMD_DATA → p.LEN % 4 = 0 → X.state = DFU_STATE_RECIEVE_DATA →
        1 + (X.data.length + p.LEN) / SECTOR_SIZE ≤ slot_size X.is_self_update) ∧
      (p.CMD = CMD_FINISH → crc32_finish X.crc_ctx = X.img_expected_crc →
        X.unwritten_sector = true →
        1 + X.data.length / SECTOR_SIZE < slot_size X.is_self_update)
  | .commit _ => True

theorem slot_size_le (self_update : Bool) : slot_size self_update ≤ 2 ^ 14 := by
  cases self_update <;> decide

theorem slot_size_pos (self_update : Bool) : 0 < slot_size self_update := by
  cases self_update <;> decide

/-- The sectors that this session may write. -/
def Dfu.InSlot (X₀ X : Dfu) (s : Nat) : Prop :=
  X₀.target X.is_self_update ≤ s ∧ s < X₀.target X.is_self_update + slot_size X.is_self_update

theorem Dfu.inSlot_write {E : Nat → Prop} (hw : ∀ s ∈ X.written, E s) (hsec : E sector) :
    ∀ s ∈ (X.write_sector sector f).written, E s := by
  intro s hmem
  rcases Dfu.mem_write_sector hmem with hmem | rfl
  · exact hw s hmem
  · exact hsec

/-- The bookkeeping, and every sector in the log is one of the slot's. -/
structure InSlot (X₀ X : Dfu) : Prop where
  session : Session X₀ X
  written : ∀ s ∈ X.written, X₀.InSlot X s

namespace InSlot

theorem noWrap (hs : InSlot X₀ X) (hok : X.fits a) : X.noWrap a := by
  cases a with
  | commit f => trivial
  | packet p f =>
    refine ⟨hok.1, fun hcmd hlen hst => ?_⟩
    have hroom := X₀.target_room X.is_self_update
    have hsize := slot_size_le X.is_self_update
    have hbase := hs.session.base (hs.session.started_of hst)
    have hfit := hok.2.1 hcmd hlen hst
    omega

/-- Nothing is in the log before the session starts. -/
theorem fresh_written (hs : InSlot X₀ X) (hnew : X.started = false) :
    ∀ s ∈ X.written, False := by
  obtain ⟨hw, -, -, -, -⟩ := hs.session.fresh hnew
  intro s hmem
  rw [hw] at hmem
  exact nomatch hmem

theorem step (hs : InSlot X₀ X) (hok : X.fits a) (h : X.step a = some Y) : InSlot X₀ Y := by
  refine ⟨hs.session.step (hs.noWrap hok) h, ?_⟩
  have hmove := Dfu.step_move h
  cases hmove with
  | idle hopen => exact hs.written
  | refuse hopen => exact hs.written
  | start hopen _ hnew =>
    refine Dfu.inSlot_write (fun s hmem => (hs.fresh_written hnew s hmem).elim) ?_
    · unfold Dfu.new_slot
      rw [(hs.session.kept (Dfu.open_ne hopen).1).1]
      exact ⟨Nat.le_refl _, Nat.lt_add_of_pos_right (slot_size_pos _)⟩
  | start_self hopen _ hnew =>
    refine Dfu.inSlot_write (fun s hmem => (hs.fresh_written hnew s hmem).elim) ?_
    · exact ⟨Nat.le_refl _, Nat.lt_add_of_pos_right (slot_size_pos _)⟩
  | @data p f hcmd hlen hst =>
    have hstart := hs.session.started_of hst
    have hbase := hs.session.base hstart
    have hcounter := hs.session.counter
    have hfit := hok.2.1 hcmd hlen hst
    have hlen256 := hok.1
    obtain ⟨crc, n, heq⟩ := X.accept_data_eq p f
    rw [heq]
    by_cases hfull : SECTOR_SIZE ≤ X.current_sector_counter + p.LEN
    · rw [Dfu.fill_full hs.session.counter_lt hlen256 hfull]
      refine Dfu.inSlot_write hs.written ?_
      rw [show u32 (X.dfu_base_sector + X.sectors_written) = _ from hs.session.next_sector hstart]
      have hdiv : (X.data.length + p.LEN) / SECTOR_SIZE = X.data.length / SECTOR_SIZE + 1 := by
        unfold SECTOR_SIZE at *
        unfold MAX_DATA_SIZE_BYTES at hlen256
        omega
      show X₀.target X.is_self_update ≤ X.dfu_base_sector + 1 + X.data.length / SECTOR_SIZE ∧
        X.dfu_base_sector + 1 + X.data.length / SECTOR_SIZE <
          X₀.target X.is_self_update + slot_size X.is_self_update
      generalize X.data.length / SECTOR_SIZE = q at *
      omega
    · rw [Dfu.fill_part (by omega)]
      exact hs.written
  | @finish p f hopen hcmd hcrc =>
    have hfit := hok.2.2 hcmd hcrc
    unfold Dfu.flush
    split
    · rename_i hu
      have hstart : X.started = true := by
        cases hst : X.started with
        | true => rfl
        | false => exact nomatch hu.symm.trans (hs.session.fresh hst).2.1
      have hbase := hs.session.base hstart
      have hroom := hfit hu
      refine Dfu.inSlot_write hs.written ?_
      rw [show u32 (X.dfu_base_sector + X.sectors_written) = _ from hs.session.next_sector hstart]
      show X₀.target X.is_self_update ≤ X.dfu_base_sector + 1 + X.data.length / SECTOR_SIZE ∧
        X.dfu_base_sector + 1 + X.data.length / SECTOR_SIZE <
          X₀.target X.is_self_update + slot_size X.is_self_update
      generalize X.data.length / SECTOR_SIZE = q at *
      omega
    · exact hs.written
  | reset _ _ => exact hs.written
  | commit _ _ _ => exact hs.written
  | reject _ => exact hs.written

end InSlot

end Session

theorem APP_SLOT_TO_SECTOR_cases (slot : UInt32) :
    APP_SLOT_TO_SECTOR slot = EMMC_SECTOR_APP_A ∧
      APP_SLOT_TO_SECTOR (APP_SLOT_OTHER slot) = EMMC_SECTOR_APP_B ∨
    APP_SLOT_TO_SECTOR slot = EMMC_SECTOR_APP_B ∧
      APP_SLOT_TO_SECTOR (APP_SLOT_OTHER slot) = EMMC_SECTOR_APP_A := by
  unfold APP_SLOT_TO_SECTOR APP_SLOT_OTHER
  by_cases h : slot = APP_SLOT_B
  · rw [if_pos h, if_pos h]
    exact .inr ⟨rfl, rfl⟩
  · rw [if_neg h, if_neg h]
    exact .inl ⟨rfl, rfl⟩

/-- The active slot, the metadata and the slot that is written do not overlap. -/
theorem Dfu.not_inSlot (X₀ X : Dfu) :
    (∀ i, i < EMMC_SECTOR_SIZE_APP →
      ¬X₀.InSlot X (APP_SLOT_TO_SECTOR X₀.wdt_meta.active_app_slot + i)) ∧
    ¬X₀.InSlot X EMMC_SECTOR_METADATA := by
  have hcases := APP_SLOT_TO_SECTOR_cases X₀.wdt_meta.active_app_slot
  have hA : EMMC_SECTOR_APP_A = EMMC_SECTOR_BOOTLOADER + 2048 := rfl
  have hB : EMMC_SECTOR_APP_B = EMMC_SECTOR_BOOTLOADER + 18432 := rfl
  have hM : EMMC_SECTOR_METADATA = EMMC_SECTOR_BOOTLOADER + 1024 := rfl
  unfold Dfu.InSlot Dfu.target slot_size Dfu.new_slot
  unfold EMMC_SECTOR_SIZE_APP EMMC_SECTOR_SIZE_BOOTLOADER
  split
  · exact ⟨fun i hi => by omega, by omega⟩
  · exact ⟨fun i hi => by omega, by omega⟩

/-- A card of zeros, and RAM of zeros; slot B is active. -/
def dfu_blank : Dfu where
  emmc := fun _ _ => 0
  wdt_meta := { wdt_meta_defaults with active_app_slot := APP_SLOT_B }
  boot_flags := { magic := 0, reset_reason := 0, dfu_requested := 0, fw_crc_ok := 0 }
  sectors_written := 0
  current_sector := fun _ => 0
  current_sector_counter := 0
  unwritten_sector := false
  started := false
  is_self_update := false
  dfu_base_sector := 0
  state := DFU_STATE_START
  img_expected_crc := 0
  img_length := 0
  bytes_hashed := 0
  crc_ctx := 0
  tx := []
  header := []
  data := []
  written := []

/-- A packet of zeros. -/
def zero_packet (CMD : UInt8) (LEN : Nat) : DFU_Packet where
  CMD := CMD
  LEN := LEN
  DATA := fun _ => 0
  CRC := 0

/-- While every packet fits, only the sectors of the slot are written, and until the commit the rest
of the card is what it was: the active slot and the metadata among it. -/
theorem dfu_stays_in_slot (X Y : Dfu) (img_expected_crc crc_ctx : UInt32)
    (hr : Reach Dfu.step Dfu.fits (X.init img_expected_crc crc_ctx) Y) :
    (∀ s ∈ Y.written, X.target Y.is_self_update ≤ s ∧
      s < X.target Y.is_self_update + slot_size Y.is_self_update) ∧
    (Y.state ≠ DFU_STATE_DONE →
      (∀ s, ¬X.InSlot Y s → Y.emmc s = X.emmc s) ∧
      (∀ i, i < EMMC_SECTOR_SIZE_APP →
        Y.emmc (APP_SLOT_TO_SECTOR X.wdt_meta.active_app_slot + i) =
          X.emmc (APP_SLOT_TO_SECTOR X.wdt_meta.active_app_slot + i)) ∧
      Y.emmc EMMC_SECTOR_METADATA = X.emmc EMMC_SECTOR_METADATA) := by
  have hinv : InSlot (X.init img_expected_crc crc_ctx) Y := by
    refine hr.invariant ⟨.init X _ _, fun s hmem => nomatch hmem⟩ ?_
    intro s s' a hs hok h
    exact hs.step hok h
  have hrest : Y.state ≠ DFU_STATE_DONE → ∀ s, ¬X.InSlot Y s → Y.emmc s = X.emmc s :=
    fun hst s hout => (hinv.session.kept hst).2.2 s fun hmem => hout (hinv.written s hmem)
  refine ⟨hinv.written, fun hst => ⟨hrest hst, fun i hi => ?_, ?_⟩⟩
  · exact hrest hst _ ((X.not_inSlot Y).1 i hi)
  · exact hrest hst _ (X.not_inSlot Y).2

/-- A session behind its start packet. -/
def dfu_started : Dfu := (dfu_blank.init 0 0).handle (zero_packet CMD_START START_PACKET_SIZE) none

/-- And behind data packets of 256 bytes. -/
def dfu_received : Nat → Dfu
  | 0 => dfu_started
  | n + 1 => (dfu_received n).handle (zero_packet CMD_DATA MAX_DATA_SIZE_BYTES) none

/-- The second data packet fills a sector, behind the header's. -/
theorem dfu_stays_in_slot_started :
    (dfu_received 2).written = [EMMC_SECTOR_APP_A, EMMC_SECTOR_APP_A + 1] ∧
      (∀ s ∈ (dfu_received 2).written, EMMC_SECTOR_APP_A ≤ s ∧ s < EMMC_SECTOR_APP_B) ∧
      (dfu_received 2).emmc EMMC_SECTOR_METADATA = dfu_blank.emmc EMMC_SECTOR_METADATA := by
  have hstart : (dfu_blank.init 0 0).fits
      (.packet (zero_packet CMD_START START_PACKET_SIZE) none) := by
    refine ⟨by decide, fun h => ?_, fun h => ?_⟩
    · exact absurd h (by decide)
    · exact absurd h (by decide)
  have hdata : ∀ n, 1 + ((dfu_received n).data.length + MAX_DATA_SIZE_BYTES) / SECTOR_SIZE ≤
      slot_size (dfu_received n).is_self_update →
      (dfu_received n).fits (.packet (zero_packet CMD_DATA MAX_DATA_SIZE_BYTES) none) := by
    intro n hn
    refine ⟨by decide, fun _ _ _ => hn, fun h => ?_⟩
    exact absurd h (by decide)
  have hrun : Reach Dfu.step Dfu.fits (dfu_blank.init 0 0) (dfu_received 2) :=
    ((Reach.start.step hstart rfl).step (hdata 0 (by decide +kernel)) rfl).step
      (hdata 1 (by decide +kernel)) rfl
  have hstate : (dfu_received 2).state ≠ DFU_STATE_DONE := by decide +kernel
  obtain ⟨hwritten, hrest⟩ := dfu_stays_in_slot dfu_blank (dfu_received 2) 0 0 hrun
  exact ⟨by decide +kernel, hwritten, (hrest hstate).2.2⟩

/-- A write that the card does not refuse is in the log. -/
theorem Dfu.write_sector_written (X : Dfu) {sector : Nat} (h : EMMC_FIRMWARE_FLOOR ≤ sector) :
    (X.write_sector sector none).written = X.written ++ [sector] := by
  unfold Dfu.write_sector emmc_write_blocks
  rw [if_neg (by omega)]
  rfl

/-- A data packet of full length: every second one fills a sector. -/
theorem Session.data_written {X₀ X : Dfu} {p : DFU_Packet} (hs : Session X₀ X)
    (hst : X.state = DFU_STATE_RECIEVE_DATA) (hlen : p.LEN = MAX_DATA_SIZE_BYTES) :
    (∀ s ∈ X.written, s ∈ (X.accept_data p none).written) ∧
      (X.data.length % SECTOR_SIZE = MAX_DATA_SIZE_BYTES →
        X.dfu_base_sector + 1 + X.data.length / SECTOR_SIZE ∈ (X.accept_data p none).written) := by
  have hstart := hs.started_of hst
  have hcounter := hs.counter
  have hfloor := (X₀.target_room X.is_self_update).1
  rw [← hs.base hstart] at hfloor
  obtain ⟨crc, n, heq⟩ := X.accept_data_eq p none
  rw [heq]
  by_cases hfull : SECTOR_SIZE ≤ X.current_sector_counter + p.LEN
  · have hw : (X.spill p none).written =
        X.written ++ [X.dfu_base_sector + 1 + X.data.length / SECTOR_SIZE] := by
      rw [← hs.next_sector hstart]
      refine Dfu.write_sector_written _ ?_
      rw [show u32 (X.dfu_base_sector + X.sectors_written) = _ from hs.next_sector hstart]
      exact Nat.le_trans hfloor (Nat.le_trans (Nat.le_add_right _ 1) (Nat.le_add_right _ _))
    rw [Dfu.fill_full hs.counter_lt (Nat.le_of_eq hlen) hfull]
    dsimp only
    rw [hw]
    exact ⟨fun s hmem => List.mem_append_left _ hmem, fun _ => List.mem_append_right _ (by simp)⟩
  · rw [Dfu.fill_part (by omega)]
    refine ⟨fun s hmem => hmem, fun hmod => ?_⟩
    rw [hcounter, hmod, hlen] at hfull
    exact absurd (by decide) hfull

/-- A stream of full data packets writes one sector after the other. -/
theorem Session.stream {X₀ : Dfu} {p : DFU_Packet} (hcmd : p.CMD = CMD_DATA)
    (hlen : p.LEN = MAX_DATA_SIZE_BYTES) (n : Nat) : ∀ X : Dfu, Session X₀ X →
      X.state = DFU_STATE_RECIEVE_DATA →
      X.dfu_base_sector + 2 + (X.data.length + MAX_DATA_SIZE_BYTES * n) / SECTOR_SIZE < 2 ^ 32 →
      X.data.length % MAX_DATA_SIZE_BYTES = 0 →
      ∃ Y, execute Dfu.step anything X (List.replicate n (.packet p none)) = some Y ∧
        (∀ s ∈ X.written, s ∈ Y.written) ∧
        ∀ k, X.data.length / SECTOR_SIZE ≤ k →
          k < (X.data.length + MAX_DATA_SIZE_BYTES * n) / SECTOR_SIZE →
          X.dfu_base_sector + 1 + k ∈ Y.written := by
  induction n with
  | zero =>
    intro X _ _ _ _
    refine ⟨X, rfl, fun s hmem => hmem, fun k hle hlt => ?_⟩
    rw [Nat.mul_zero, Nat.add_zero] at hlt
    omega
  | succ n ih =>
    intro X hs hst hroom hmod
    have hopen : X.open_session = true := by
      unfold Dfu.open_session
      rw [hst]
      rfl
    have hstep : X.step (.packet p none) = some (X.accept_data p none) := by
      have hhandle : X.handle p none = X.accept_data p none := by
        unfold Dfu.handle Dfu.receive_data
        rw [hcmd, hlen, if_neg (by decide), if_neg (by decide), if_pos rfl, if_neg (by decide),
          if_pos hst]
      rw [Dfu.step_packet hopen, hhandle]
    have hfit : X.dfu_base_sector + 2 + (X.data.length + p.LEN) / SECTOR_SIZE < 2 ^ 32 := by
      have hle : (X.data.length + p.LEN) / SECTOR_SIZE ≤
          (X.data.length + MAX_DATA_SIZE_BYTES * (n + 1)) / SECTOR_SIZE := by
        rw [hlen, Nat.mul_succ]
        exact Nat.div_le_div_right (by omega)
      omega
    have hs' := hs.data (f := none) hst (Nat.le_of_eq hlen) hfit
    obtain ⟨hkeep, hnew⟩ := hs.data_written hst hlen
    have hsame : (X.accept_data p none).state = DFU_STATE_RECIEVE_DATA ∧
        (X.accept_data p none).dfu_base_sector = X.dfu_base_sector ∧
        (X.accept_data p none).data.length = X.data.length + MAX_DATA_SIZE_BYTES := by
      obtain ⟨crc, m, heq⟩ := X.accept_data_eq p none
      obtain ⟨_, _, _, _, _, _, hfill⟩ := X.fill_eq p none
      rw [heq, hfill]
      exact ⟨hst, rfl, by simp [bytes_at, hlen]⟩
    obtain ⟨hst', hbase, hdata⟩ := hsame
    obtain ⟨Y, hexec, hmono, hlog⟩ := ih (X.accept_data p none) hs' hst'
      (by rw [hbase, hdata]; unfold SECTOR_SIZE MAX_DATA_SIZE_BYTES at *; omega)
      (by rw [hdata]; unfold MAX_DATA_SIZE_BYTES at *; omega)
    refine ⟨Y, ?_, fun s hmem => hmono s (hkeep s hmem), fun k hle hlt => ?_⟩
    · rw [List.replicate_succ, execute_cons hstep]
      exact hexec
    · rw [hbase, hdata] at hlog
      by_cases hk : k < (X.data.length + MAX_DATA_SIZE_BYTES) / SECTOR_SIZE
      · have hk' : k = X.data.length / SECTOR_SIZE ∧
            X.data.length % SECTOR_SIZE = MAX_DATA_SIZE_BYTES := by
          unfold SECTOR_SIZE MAX_DATA_SIZE_BYTES at *
          omega
        rw [hk'.1]
        exact hmono _ (hnew hk'.2)
      · refine hlog k (Nat.le_of_not_lt hk) ?_
        unfold SECTOR_SIZE MAX_DATA_SIZE_BYTES at *
        omega

/-- An update of slot A that sends 8 MiB: its last data packet overwrites the header of slot B, the
active slot. -/
theorem dfu_leaves_slot :
    ∃ Y, execute Dfu.step anything (dfu_blank.init 0 0)
        (.packet (zero_packet CMD_START START_PACKET_SIZE) none ::
          List.replicate 32768 (.packet (zero_packet CMD_DATA MAX_DATA_SIZE_BYTES) none)) = some Y ∧
      APP_SLOT_TO_SECTOR dfu_blank.wdt_meta.active_app_slot ∈ Y.written ∧
      ∀ self_update, ¬(dfu_blank.target self_update ≤ EMMC_SECTOR_APP_B ∧
        EMMC_SECTOR_APP_B < dfu_blank.target self_update + slot_size self_update) := by
  have hs : Session (dfu_blank.init 0 0) ((dfu_blank.init 0 0).begin_session
      (zero_packet CMD_START START_PACKET_SIZE) EMMC_SECTOR_APP_A false none) :=
    (Session.init dfu_blank 0 0).begin_session rfl DfuState.noConfusion rfl
  obtain ⟨Y, hexec, -, hlog⟩ := Session.stream (p := zero_packet CMD_DATA MAX_DATA_SIZE_BYTES)
    rfl rfl 32768 _ hs rfl (by decide) rfl
  refine ⟨Y, ?_, hlog 16383 (by decide) (by decide), by decide⟩
  have hstart : (dfu_blank.init 0 0).step
      (.packet (zero_packet CMD_START START_PACKET_SIZE) none) = some
        ((dfu_blank.init 0 0).begin_session (zero_packet CMD_START START_PACKET_SIZE)
          EMMC_SECTOR_APP_A false none) := rfl
  rw [execute_cons hstart]
  exact hexec

end Rpitos
