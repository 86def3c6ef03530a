import Rpitos.Boot.Emmc

/-!
# Boot.Packet

`dfu_packet_receive`, one byte from the UART at a time. The wire gives bytes, and silences longer
than the packet timeout: `uart_rx` waits through a silence, `uart_rx_timed` gives up.

`DATA` is a buffer of 256 bytes; here it has an entry for every index, and `store_index` says which
index a byte is stored at.
-/

namespace Rpitos

open Function StatusCode

def MAX_DATA_SIZE_BYTES : Nat := 256

def CMD_REQ : UInt8 := 0x01
def CMD_START : UInt8 := 0x02
def CMD_START_SELF_UPDATE : UInt8 := 0x03
def CMD_DATA : UInt8 := 0x04
def CMD_FINISH : UInt8 := 0x05
def CMD_ABORT : UInt8 := 0x06
def NUM_CMDS : UInt8 := 0x09

/-- What the UART gives next. -/
inductive RxEvent where
  | byte (b : UInt8)
  /-- `DFU_PACKET_TIMEOUT_MS` without a byte. -/
  | silence
  deriving DecidableEq, Repr

structure DFU_Packet where
  CMD : UInt8
  LEN : Nat
  DATA : Sector
  CRC : UInt32

/-- PacketState, and in a state that reads more than one byte how far it is. -/
inductive PacketPc where
  | START
  | CMD
  | LENGTH
  /-- Waits for `byte_lsb`. -/
  | LENGTH_LSB (byte : UInt8)
  | PAYLOAD
  /-- In the loop, waits for `DATA[remaining]`. -/
  | PAYLOAD_REST (remaining : Nat)
  | CRC
  | CRC_B2 (byte : UInt8)
  | CRC_B3 (byte crc_b2 : UInt8)
  | CRC_B4 (byte crc_b2 crc_b3 : UInt8)
  | END
  | ERROR
  deriving DecidableEq, Repr

/-- What an event makes of the parser. -/
inductive PacketStep where
  | next (pc : PacketPc) (packet : DFU_Packet)
  | returns (code : StatusCode) (packet : DFU_Packet)

/-- After the payload byte at `i` is stored. -/
def payload_next (LEN i : Nat) : PacketPc := if i + 1 < LEN then .PAYLOAD_REST (i + 1) else .CRC

/-- The state behind a byte. -/
def dfu_packet_byte (pc : PacketPc) (packet : DFU_Packet) (byte : UInt8) : PacketStep :=
  match pc with
  | .START => .next (if byte = 0xAA then .CMD else .START) packet
  | .CMD =>
    if CMD_REQ ≤ byte ∧ byte < NUM_CMDS then .next .LENGTH { packet with CMD := byte }
    else .next .ERROR packet
  | .LENGTH => .next (.LENGTH_LSB byte) packet
  | .LENGTH_LSB msb => .next .PAYLOAD { packet with LEN := msb.toNat * 256 + byte.toNat }
  | .PAYLOAD =>
    .next (payload_next packet.LEN 0) { packet with DATA := update packet.DATA 0 byte }
  | .PAYLOAD_REST remaining =>
    .next (payload_next packet.LEN remaining)
      { packet with DATA := update packet.DATA remaining byte }
  | .CRC => .next (.CRC_B2 byte) packet
  | .CRC_B2 b1 => .next (.CRC_B3 b1 byte) packet
  | .CRC_B3 b1 b2 => .next (.CRC_B4 b1 b2 byte) packet
  | .CRC_B4 b1 b2 b3 => .next .END { packet with CRC := word byte b3 b2 b1 }
  | .END => if byte = 0xBB then .returns E_OK packet else .next .END packet
  | .ERROR => .next .START { packet with CMD := 0, CRC := 0, LEN := 0 }

/-- The states that read with `uart_rx_timed`. -/
def PacketPc.timed : PacketPc → Bool
  | .LENGTH_LSB _ => true
  | .PAYLOAD_REST _ => true
  | .CRC_B2 _ => true
  | .CRC_B3 _ _ => true
  | .CRC_B4 _ _ _ => true
  | _ => false

def dfu_packet_receive (pc : PacketPc) (packet : DFU_Packet) : RxEvent → PacketStep
  | .byte b => dfu_packet_byte pc packet b
  | .silence => if pc.timed then .returns E_TIMED_OUT packet else .next pc packet

/-- The index of `packet->DATA` that an event stores to. -/
def store_index : PacketPc → RxEvent → Option Nat
  | .PAYLOAD, .byte _ => some 0
  | .PAYLOAD_REST remaining, .byte _ => some remaining
  | _, _ => none

end Rpitos
