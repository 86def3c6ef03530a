import Rpitos.Boot.DfuFrame
import Rpitos.Boot.DfuImage

/-!
# Boot.HostTool

`dfu_flash.py`: the bytes that `flash` writes for an image, one packet behind the other. Its packets
through the device's parser: `feed_build_packet`.
-/

namespace Rpitos

open Function StatusCode DfuState

def PACKET_SOF : UInt8 := 0xAA
def PACKET_EOF : UInt8 := 0xBB
def TRIGGER_KEY : List UInt8 := [0xDF, 0x00, 0xDF, 0x00]
def MAX_CHUNK : Nat := 256

/-- `zlib.crc32`: CRC-32/ISO-HDLC, byte by byte. -/
def zlib_crc32 (data : List UInt8) : UInt32 := data.foldl crc32b 0xFFFFFFFF ^^^ 0xFFFFFFFF

theorem zlib_crc32_eq (data : List UInt8) : zlib_crc32 data = crc32 data := by
  unfold crc32
  rw [crc32_update_eq]
  rfl

/-- Wire format; the CRC is zero. -/
def build_packet (cmd : UInt8) (data : List UInt8) : List UInt8 :=
  [PACKET_SOF, cmd, UInt8.ofNat (data.length / 256), UInt8.ofNat data.length] ++ data ++
    [0, 0, 0, 0] ++ [PACKET_EOF]

/-- Pad to a multiple of 4. -/
def pad (data : List UInt8) : List UInt8 :=
  if data.length % 4 ≠ 0 then data ++ List.replicate (4 - data.length % 4) 0 else data

/-- The loop over `CMD_DATA`, from an offset on. -/
def data_chunks (img : List UInt8) : (fuel offset : Nat) → List (List UInt8)
  | 0, _ => []
  | fuel + 1, offset =>
    if offset < img.length then
      pad ((img.drop offset).take MAX_CHUNK) :: data_chunks img fuel (offset + MAX_CHUNK)
    else []

/-- `struct.pack("<III", 1, app_length, app_crc)`. -/
def start_packet (img : List UInt8) : List UInt8 :=
  [1, UInt32.ofNat img.length, zlib_crc32 img].flatMap word_bytes

/-- What `flash` writes while every packet is acknowledged. -/
def flash (img : List UInt8) : List (List UInt8) :=
  if img.length = 0 ∨ img.length > 0xFFFF then []
  else
    [TRIGGER_KEY, build_packet CMD_START (start_packet img)] ++
      (data_chunks (pad img) (pad img).length 0).map (build_packet CMD_DATA) ++
      [build_packet CMD_FINISH [0x00]]

theorem pad_length (data : List UInt8) : (pad data).length % 4 = 0 ∧
    data.length ≤ (pad data).length ∧ (pad data).length < data.length + 4 := by
  unfold pad
  split
  · rw [List.length_append, List.length_replicate]
    omega
  · omega

theorem pad_of_dvd {data : List UInt8} (h : data.length % 4 = 0) : pad data = data :=
  if_neg fun hne => hne h

/-- The image, then zeros. -/
theorem pad_getD (data : List UInt8) (i : Nat) : (pad data).getD i 0 = data.getD i 0 := by
  unfold pad
  split
  · by_cases h : i < data.length
    · exact List.getD_append data _ 0 i h
    · rw [List.getD_append_right data _ 0 i (Nat.le_of_not_lt h),
        List.getD_eq_default data 0 (Nat.le_of_not_lt h)]
      simp only [List.getD_eq_getElem?_getD, List.getElem?_replicate]
      split <;> rfl
  · rfl

theorem pad_take (data : List UInt8) : (pad data).take data.length = data := by
  unfold pad
  split
  · exact List.take_left' rfl
  · exact List.take_length

/-- The chunks are the image, cut; each fits a packet. -/
theorem data_chunks_spec {img : List UInt8} (himg : img.length % 4 = 0) (fuel : Nat) :
    ∀ offset, offset % 4 = 0 → img.length ≤ offset + MAX_CHUNK * fuel →
      (data_chunks img fuel offset).flatten = img.drop offset ∧
      ∀ c ∈ data_chunks img fuel offset,
        0 < c.length ∧ c.length ≤ MAX_CHUNK ∧ c.length % 4 = 0 := by
  induction fuel with
  | zero =>
    intro offset _ hlen
    rw [Nat.mul_zero, Nat.add_zero] at hlen
    exact ⟨(List.drop_eq_nil_of_le hlen).symm, fun c hc => nomatch hc⟩
  | succ fuel ih =>
    intro offset hoff hlen
    unfold data_chunks
    by_cases h : offset < img.length
    · have hchunk : ((img.drop offset).take MAX_CHUNK).length = min MAX_CHUNK (img.length - offset) := by
        rw [List.length_take, List.length_drop]
      have hdvd : ((img.drop offset).take MAX_CHUNK).length % 4 = 0 := by
        rw [hchunk]
        unfold MAX_CHUNK
        omega
      have hoff' : (offset + MAX_CHUNK) % 4 = 0 := by
        unfold MAX_CHUNK
        omega
      obtain ⟨hrest, hsize⟩ := ih (offset + MAX_CHUNK) hoff' (by rw [Nat.mul_succ] at hlen; omega)
      rw [if_pos h, pad_of_dvd hdvd]
      refine ⟨?_, fun c hc => ?_⟩
      · rw [List.flatten_cons, hrest, ← List.drop_drop, List.take_append_drop]
      · rcases List.mem_cons.mp hc with rfl | hc
        · refine ⟨?_, ?_, hdvd⟩
          · rw [hchunk]
            unfold MAX_CHUNK
            omega
          · rw [hchunk]
            exact Nat.min_le_left _ _
        · exact hsize c hc
    · rw [if_neg h]
      exact ⟨(List.drop_eq_nil_of_le (Nat.le_of_not_lt h)).symm, fun c hc => nomatch hc⟩

namespace DfuReceive

variable {R : DfuReceive}

theorem feed_bytes_append (R : DfuReceive) (xs ys : List UInt8) :
    R.feed_bytes (xs ++ ys) = (R.feed_bytes xs).feed_bytes ys := List.foldl_append

/-- A byte that the parser takes without ending the packet. -/
theorem feed_next (pc : PacketPc) {pc' : PacketPc} {packet' : DFU_Packet} {b : UInt8}
    (bytes : List UInt8)
    (hpc : R.pc = .packet pc) (h : dfu_packet_byte pc R.packet b = .next pc' packet') :
    R.feed_bytes (b :: bytes) =
      ({ R with packet := packet', pc := .packet pc' } : DfuReceive).feed_bytes bytes := by
  show (R.feed (.byte b) (none, none)).feed_bytes bytes = _
  congr 1
  unfold feed
  rw [hpc]
  dsimp only [dfu_packet_receive]
  rw [h]

/-- What `dfu_receive` does with a complete packet. -/
def receive (R : DfuReceive) (packet : DFU_Packet) : DfuReceive :=
  let X := R.dfu.handle packet none
  let X := if X.state = finishing then X.commit none else X
  { dfu := X, packet := packet, pc := after_packet X }

/-- Bytes on which `dfu_packet_receive` does not return. -/
theorem feed_state {pc' : PacketPc} {packet' : DFU_Packet} (rest bytes : List UInt8) :
    ∀ {R : DfuReceive} {pc : PacketPc}, R.pc = .packet pc →
      packet_state pc R.packet bytes = some (pc', packet') →
      R.feed_bytes (bytes ++ rest) =
        ({ R with packet := packet', pc := .packet pc' } : DfuReceive).feed_bytes rest := by
  induction bytes with
  | nil =>
    intro R pc hpc h
    cases h
    rw [← hpc]
    rfl
  | cons b bytes ih =>
    intro R pc hpc h
    obtain ⟨pc₁, packet₁, hb, h⟩ := packet_state_cons h
    rw [List.cons_append, feed_next pc _ hpc hb]
    exact ih rfl h

theorem build_packet_eq (cmd : UInt8) (data : List UInt8) : build_packet cmd data =
    (0xAA :: cmd :: len_bytes data.length ++ data ++ (word_bytes 0).reverse) ++ [PACKET_EOF] := rfl

/-- A packet of the host arrives as it was built. -/
theorem feed_build_packet {cmd : UInt8} {data : List UInt8} (hpc : R.pc = .packet .START)
    (hcmd : CMD_REQ ≤ cmd ∧ cmd < NUM_CMDS) (hpos : data ≠ []) (hlen : data.length ≤ 0xFFFF) :
    ∃ packet, R.feed_bytes (build_packet cmd data) = R.receive packet ∧ packet.CMD = cmd ∧
      packet.LEN = data.length ∧ bytes_at packet.DATA 0 data.length = data := by
  have hone : data.length = max 1 data.length :=
    (Nat.max_eq_right (List.length_pos_iff.mpr hpos)).symm
  obtain ⟨packet, hstate, hCMD, hLEN, hDATA, -⟩ :=
    packet_state_body R.packet 0 hcmd (Nat.lt_succ_of_le hlen) hone
  refine ⟨packet, ?_, hCMD, hLEN, hDATA⟩
  rw [build_packet_eq, feed_state _ _ hpc hstate]
  rfl

end DfuReceive
end Rpitos
