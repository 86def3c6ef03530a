import Rpitos.Boot.Packet
import Rpitos.Boot.Boot

/-!
# Boot.DfuReceive

`dfu_receive.c`: what the session does with each packet, and the whole of `dfu_receive` from the
trigger key on, fed by the UART.

`CMD_FINISH` writes the last sector and then, in a later step, commits: a reset can come between its
two writes. The fields `header`, `data` and `written` record the session: what `CMD_START` sent, the
image bytes accepted so far, and the sectors written before the commit.
-/

namespace Rpitos

open Function StatusCode

def DFU_ACK : UInt8 := 0x06
def DFU_NACK : UInt8 := 0x15
def DFU_APP_MAGIC : UInt32 := 0x44465521
def DFU_APP_MARKER_OFFSET : Nat := 0x20
def DFU_TRIGGER_KEY : UInt32 := 0xDF00DF00

inductive DfuState where
  | DFU_STATE_START
  | DFU_STATE_RECIEVE_DATA
  /-- In `CMD_FINISH`, behind the write of the last sector. -/
  | finishing
  | DFU_STATE_DONE
  | DFU_STATE_ABORT
  /-- In `watchdog_trigger_reset`. -/
  | resetting
  deriving DecidableEq, Repr

open DfuState

/-- The card, the RAM of the bootloader, and the statics and locals of `dfu_receive`. -/
structure Dfu where
  emmc : Emmc
  wdt_meta : WdtMeta
  boot_flags : BootFlags
  sectors_written : Nat
  current_sector : Sector
  current_sector_counter : Nat
  unwritten_sector : Bool
  started : Bool
  is_self_update : Bool
  dfu_base_sector : Nat
  state : DfuState
  img_expected_crc : UInt32
  img_length : UInt32
  bytes_hashed : Nat
  crc_ctx : UInt32
  /-- The answers sent with `uart_tx_raw`. -/
  tx : List UInt8
  header : List UInt8
  data : List UInt8
  written : List Nat

namespace Dfu

/-- `emmc_write_blocks` of the session's buffer. -/
def write_sector (X : Dfu) (sector : Nat) (fault : Option StatusCode) : Dfu :=
  let r := emmc_write_blocks X.emmc sector X.current_sector fault
  { X with emmc := r.2, written := if r.1 = E_OK then X.written ++ [sector] else X.written }

def answer (X : Dfu) (byte : UInt8) : Dfu := { X with tx := X.tx ++ [byte] }

def abort (X : Dfu) : Dfu := { X.answer DFU_NACK with state := DFU_STATE_ABORT }

/-- A start packet that is accepted. -/
def begin_session (X : Dfu) (packet : DFU_Packet) (base_sector : Nat) (self_update : Bool)
    (fault : Option StatusCode) : Dfu :=
  let start_pkt := StartPacket.of_buffer packet.DATA
  let X := { X with
    state := DFU_STATE_RECIEVE_DATA
    current_sector := copy_bytes X.current_sector 0 packet.DATA START_PACKET_SIZE
    img_expected_crc := start_pkt.crc
    img_length := start_pkt.fw_length
    crc_ctx := crc32_start
    dfu_base_sector := base_sector
    header := bytes_at packet.DATA 0 START_PACKET_SIZE }
  let X := X.write_sector base_sector fault
  { X with sectors_written := 1, is_self_update := self_update, started := true }.answer DFU_ACK

/-- `CMD_START` and `CMD_START_SELF_UPDATE`. -/
def start (X : Dfu) (packet : DFU_Packet) (base_sector : Nat) (self_update : Bool)
    (fault : Option StatusCode) : Dfu :=
  if X.started then X.abort
  else if packet.LEN ≠ START_PACKET_SIZE then X.abort
  else X.begin_session packet base_sector self_update fault

/-- The part of `CMD_DATA` that fills sectors. -/
def fill (X : Dfu) (packet : DFU_Packet) (fault : Option StatusCode) : Dfu :=
  if X.current_sector_counter + packet.LEN ≥ SECTOR_SIZE then
    let diff := X.current_sector_counter + packet.LEN - SECTOR_SIZE
    let n := u32 (packet.LEN + (2 ^ 32 - diff))
    let X := { X with
      current_sector := copy_bytes X.current_sector X.current_sector_counter packet.DATA n }
    let X := X.write_sector (u32 (X.dfu_base_sector + X.sectors_written)) fault
    { X with
      current_sector := copy_bytes X.current_sector 0 (fun i => packet.DATA (u32 (n + i))) diff
      sectors_written := u32 (X.sectors_written + 1)
      unwritten_sector := diff ≠ 0
      current_sector_counter := diff }
  else { X with
    unwritten_sector := true
    current_sector :=
      copy_bytes X.current_sector X.current_sector_counter packet.DATA packet.LEN
    current_sector_counter := X.current_sector_counter + packet.LEN }

/-- How many bytes of a packet `CMD_DATA` hashes: none behind the declared length. -/
def to_hash (X : Dfu) (LEN : Nat) : Nat :=
  if u32 (X.bytes_hashed + LEN) > X.img_length.toNat then
    if X.img_length.toNat > X.bytes_hashed then X.img_length.toNat - X.bytes_hashed else 0
  else LEN

/-- The part of `CMD_DATA` that hashes. -/
def hash (X : Dfu) (packet : DFU_Packet) : Dfu :=
  let n := X.to_hash packet.LEN
  if n > 0 then { X with
    crc_ctx := crc32_update X.crc_ctx (bytes_at packet.DATA 0 n)
    bytes_hashed := u32 (X.bytes_hashed + n) }
  else X

/-- A data packet that is accepted. -/
def accept_data (X : Dfu) (packet : DFU_Packet) (fault : Option StatusCode) : Dfu :=
  let X := (X.fill packet fault).hash packet
  { X with data := X.data ++ bytes_at packet.DATA 0 packet.LEN }.answer DFU_ACK

/-- `CMD_DATA`. -/
def receive_data (X : Dfu) (packet : DFU_Packet) (fault : Option StatusCode) : Dfu :=
  if packet.LEN % 4 ≠ 0 then X.abort
  else if X.state = DFU_STATE_RECIEVE_DATA then X.accept_data packet fault
  else X

/-- The write of the last sector, zeros behind the image. -/
def flush (X : Dfu) (fault : Option StatusCode) : Dfu :=
  if X.unwritten_sector then
    let n := SECTOR_SIZE - X.current_sector_counter
    let X := { X with
      current_sector := copy_bytes X.current_sector X.current_sector_counter (fun _ => 0) n }
    X.write_sector (u32 (X.dfu_base_sector + X.sectors_written)) fault
  else X

/-- `CMD_FINISH` up to the write of the last sector. -/
def finish (X : Dfu) (fault : Option StatusCode) : Dfu :=
  if crc32_finish X.crc_ctx ≠ X.img_expected_crc then X.abort
  else
    { X.flush fault with state := finishing }

/-- The slot that a commit makes active. -/
def new_slot (X : Dfu) : UInt32 := APP_SLOT_OTHER X.wdt_meta.active_app_slot

/-- The read-back of the new slot, and its marker. -/
def slot_ok (X : Dfu) : Prop :=
  (boot_validate_app X.emmc.reads (fun _ => 0) (APP_SLOT_TO_SECTOR X.new_slot)).1 = E_OK ∧
    word_at (X.emmc (APP_SLOT_TO_SECTOR X.new_slot + 1)) DFU_APP_MARKER_OFFSET = DFU_APP_MAGIC

instance (X : Dfu) : Decidable X.slot_ok := inferInstanceAs (Decidable (_ ∧ _))

/-- The new slot becomes active, on trial; the result of the write is not looked at. -/
def commit_slot (X : Dfu) (fault : Option StatusCode) : Dfu :=
  let r := wdt_meta_write X.emmc { X.wdt_meta with
    active_app_slot := X.new_slot, app_slot_trial := 1, trial_boot_count := 0 } fault
  { X with
    wdt_meta := r.2.1
    emmc := r.2.2
    boot_flags := { X.boot_flags with fw_crc_ok := 1 }
    state := DFU_STATE_DONE }.answer DFU_ACK

/-- The rest of `CMD_FINISH`. -/
def commit (X : Dfu) (fault : Option StatusCode) : Dfu :=
  if X.is_self_update then { X.answer DFU_ACK with state := resetting }
  else if X.slot_ok then X.commit_slot fault
  else X.abort

/-- What the session does with a packet. -/
def handle (X : Dfu) (packet : DFU_Packet) (fault : Option StatusCode) : Dfu :=
  if packet.CMD = CMD_START then
    X.start packet (APP_SLOT_TO_SECTOR (APP_SLOT_OTHER X.wdt_meta.active_app_slot)) false fault
  else if packet.CMD = CMD_START_SELF_UPDATE then
    X.start packet EMMC_SECTOR_BOOTLOADER true fault
  else if packet.CMD = CMD_DATA then X.receive_data packet fault
  else if packet.CMD = CMD_ABORT then X.abort
  else if packet.CMD = CMD_FINISH then X.finish fault
  else X

/-- The session waits for a packet. -/
def open_session (X : Dfu) : Bool :=
  X.state = DFU_STATE_START ∨ X.state = DFU_STATE_RECIEVE_DATA

/-- `dfu_init`, and the locals: `img_expected_crc` and `crc_ctx` are not initialised. -/
def init (X : Dfu) (img_expected_crc crc_ctx : UInt32) : Dfu :=
  { X with
    sectors_written := 0, current_sector_counter := 0, unwritten_sector := false,
    started := false, is_self_update := false, dfu_base_sector := 0,
    state := DFU_STATE_START, img_expected_crc := img_expected_crc, img_length := 0,
    bytes_hashed := 0, crc_ctx := crc_ctx, header := [], data := [], written := [] }

end Dfu

/-- A step of a session: a packet with the result of the write it may make, or the second half of
`CMD_FINISH`. -/
inductive DfuAction where
  | packet (packet : DFU_Packet) (fault : Option StatusCode)
  | commit (fault : Option StatusCode)

def Dfu.step (X : Dfu) : DfuAction → Option Dfu
  | .packet packet fault => if X.open_session then some (X.handle packet fault) else none
  | .commit fault => if X.state = finishing then some (X.commit fault) else none

/-- Where `dfu_receive` is. -/
inductive DfuPc where
  /-- Waits for the trigger key. -/
  | trigger (shift_reg : UInt32)
  /-- In `dfu_packet_receive`. -/
  | packet (pc : PacketPc)
  | returned (code : StatusCode)
  /-- In `watchdog_trigger_reset`. -/
  | resetting
  deriving DecidableEq, Repr

/-- `dfu_receive` as a whole. -/
structure DfuReceive where
  dfu : Dfu
  packet : DFU_Packet
  pc : DfuPc

namespace DfuReceive

/-- Behind a packet: the next packet, or the result. -/
def after_packet (X : Dfu) : DfuPc :=
  if X.state = DFU_STATE_DONE then .returned E_OK
  else if X.state = DFU_STATE_ABORT then .returned E_ABORTED
  else if X.state = resetting then .resetting
  else .packet .START

/-- An event from the UART; `faults` are the errors of the two writes it may lead to. `CMD_FINISH` runs
to its end. -/
def feed (R : DfuReceive) (ev : RxEvent) (faults : Option StatusCode × Option StatusCode) :
    DfuReceive :=
  match R.pc with
  | .trigger shift_reg =>
    match ev with
    | .byte b =>
      let shift_reg := (shift_reg <<< 8) ||| b.toUInt32
      if shift_reg = DFU_TRIGGER_KEY then
        { R with dfu := R.dfu.answer DFU_ACK, pc := .packet .START }
      else { R with pc := .trigger shift_reg }
    | .silence => R
  | .packet pc =>
    match dfu_packet_receive pc R.packet ev with
    | .next pc packet => { R with packet := packet, pc := .packet pc }
    | .returns code packet =>
      if code = E_OK then
        let X := R.dfu.handle packet faults.1
        let X := if X.state = finishing then X.commit faults.2 else X
        { dfu := X, packet := packet, pc := after_packet X }
      else { R with packet := packet, pc := .returned code }
  | .returned _ => R
  | .resetting => R

/-- `dfu_receive` is entered. -/
def enter (X : Dfu) (img_expected_crc crc_ctx : UInt32) (packet : DFU_Packet) : DfuReceive where
  dfu := X.init img_expected_crc crc_ctx
  packet := packet
  pc := .trigger 0

end DfuReceive
end Rpitos
