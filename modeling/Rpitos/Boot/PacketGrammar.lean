import Rpitos.Boot.HostTool

/-!
# Boot.PacketGrammar

The parser against the grammar of the wire protocol. `packet_grammar`: what `dfu_packet_receive`
accepts is in the grammar exactly if the length behind its header is neither zero nor above the size of
the buffer and the byte behind the CRC is the last one. `packet_round_trip`: the packets of the host
arrive as they were sent. `packet_resync`: noise costs no frame unless the bad headers right before it
are odd in number.
-/

namespace Rpitos

open Function StatusCode

/-! ## What is accepted -/

/-- The call that consumed these bytes stayed inside the grammar: they end in a frame whose fields the
packet holds, and no frame that the parser came to ends in another byte than `0xBB`. -/
structure InGrammar (packet₀ : DFU_Packet) (bytes : List UInt8) (packet : DFU_Packet) : Prop where
  frame : ∃ pre, ∃ f : DfuFrame, bytes = pre ++ f.bytes ∧ f.Fields packet
  last_byte : ∀ (pre : List UInt8) (f : DfuFrame) (b : UInt8) (rest : List UInt8),
    (∃ packet₁, packet_state .START packet₀ pre = some (.START, packet₁)) →
    bytes = pre ++ f.body ++ b :: rest → b = 0xBB

/-- What is behind the first header of a stream, which is `0xAA` and a command. The byte behind a bad
header is not looked at. -/
def behind_header : List UInt8 → Option (List UInt8)
  | [] => none
  | [_] => none
  | b :: c :: bytes =>
    if b = 0xAA then
      if CMD_REQ ≤ c ∧ c < NUM_CMDS then some bytes
      else
        match bytes with
        | [] => none
        | _ :: bytes => behind_header bytes
    else behind_header (c :: bytes)

theorem behind_header_skip {b : UInt8} (hb : b ≠ 0xAA) (bytes : List UInt8) :
    behind_header (b :: bytes) = behind_header bytes := by
  rcases bytes with _ | ⟨c, _ | ⟨d, bytes⟩⟩
  · rfl
  · exact (behind_header.eq_3 b c).trans (if_neg hb)
  · exact (behind_header.eq_4 b c d bytes).trans (if_neg hb)

theorem behind_header_bad {c : UInt8} (hc : ¬(CMD_REQ ≤ c ∧ c < NUM_CMDS)) (d : UInt8)
    (bytes : List UInt8) : behind_header (0xAA :: c :: d :: bytes) = behind_header bytes := by
  rw [behind_header, if_pos rfl, if_neg hc]

theorem behind_header_cmd {c : UInt8} (hc : CMD_REQ ≤ c ∧ c < NUM_CMDS) (bytes : List UInt8) :
    behind_header (0xAA :: c :: bytes) = some bytes := by
  cases bytes with
  | nil => rw [behind_header, if_pos rfl, if_pos hc]
  | cons d bytes => rw [behind_header, if_pos rfl, if_pos hc]

/-- The length behind the first header is not zero and has room in the buffer, and the byte behind the
CRC is `0xBB`. -/
def regular_frame (bytes : List UInt8) : Bool :=
  match behind_header bytes with
  | some (msb :: lsb :: tail) =>
    let LEN := msb.toNat * 256 + lsb.toNat
    1 ≤ LEN && LEN ≤ MAX_DATA_SIZE_BYTES && tail[LEN + 4]? == some 0xBB
  | _ => false

/-- Past the header. -/
def PacketPc.in_frame : PacketPc → Bool
  | .START => false
  | .CMD => false
  | .ERROR => false
  | _ => true

section Header

variable {pc pc' : PacketPc} {packet packet' : DFU_Packet}

/-- A frame is only left by returning. -/
theorem in_frame_next {b : UInt8} (h : dfu_packet_byte pc packet b = .next pc' packet')
    (hin : pc.in_frame = true) : pc'.in_frame = true := by
  cases pc with
  | START => cases hin
  | CMD => cases hin
  | ERROR => cases hin
  | PAYLOAD =>
    cases h
    unfold payload_next
    split <;> rfl
  | PAYLOAD_REST r =>
    cases h
    unfold payload_next
    split <;> rfl
  | END =>
    simp only [dfu_packet_byte] at h
    split at h <;> cases h
    rfl
  | _ => cases h; rfl

theorem in_frame_state (bytes : List UInt8) : ∀ {pc : PacketPc} {packet : DFU_Packet},
    packet_state pc packet bytes = some (pc', packet') → pc.in_frame = true →
    pc'.in_frame = true := by
  induction bytes with
  | nil =>
    intro pc packet h hin
    cases h
    exact hin
  | cons b bytes ih =>
    intro pc packet h hin
    obtain ⟨pc₁, packet₁, hb, h⟩ := packet_state_cons h
    exact ih h (in_frame_next hb hin)

/-- Bytes that lead back to `START` hold no header. -/
theorem behind_header_start : ∀ (pre tail : List UInt8) {packet : DFU_Packet},
    packet_state .START packet pre = some (.START, packet') →
    behind_header (pre ++ tail) = behind_header tail
  | [], _, _, _ => rfl
  | b :: pre, tail, packet, h => by
    by_cases hb : b = 0xAA
    · subst hb
      rw [packet_state_next (packet_byte_sof packet)] at h
      rcases pre with _ | ⟨c, pre⟩
      · cases h
      · by_cases hc : CMD_REQ ≤ c ∧ c < NUM_CMDS
        · rw [packet_state_next (packet_byte_cmd packet hc)] at h
          cases in_frame_state pre h rfl
        · rw [packet_state_next (packet_byte_not_cmd packet hc)] at h
          rcases pre with _ | ⟨d, pre⟩
          · cases h
          · rw [packet_state_next rfl] at h
            exact (behind_header_bad hc d _).trans (behind_header_start pre tail h)
    · rw [packet_state_next (packet_byte_skip packet hb)] at h
      exact (behind_header_skip hb _).trans (behind_header_start pre tail h)

/-- What is behind the header that the parser came to. -/
theorem behind_header_frame {pre : List UInt8} {CMD : UInt8} (tail : List UInt8)
    (hpre : packet_state .START packet pre = some (.START, packet'))
    (hcmd : CMD_REQ ≤ CMD ∧ CMD < NUM_CMDS) :
    behind_header (pre ++ 0xAA :: CMD :: tail) = some tail := by
  rw [behind_header_start pre _ hpre, behind_header_cmd hcmd]

/-- What is behind the header of a frame that the parser came to. -/
theorem DfuFrame.behind (f : DfuFrame) {pre : List UInt8} (tail : List UInt8)
    (hpre : packet_state .START packet pre = some (.START, packet')) :
    behind_header (pre ++ f.body ++ tail) =
      some (len_bytes f.DATA.length ++ (f.DATA ++ (word_bytes f.CRC).reverse ++ tail)) := by
  rw [← behind_header_frame _ hpre f.cmd_ok]
  simp [body]

end Header

theorem word_bytes_length (w : UInt32) : (word_bytes w).length = 4 := rfl

section Accepted

variable {packet packet₀ : DFU_Packet} {r : PacketReading}

theorem PacketReading.behind (h : r.Of packet₀ packet) (rest : List UInt8) :
    behind_header (r.bytes ++ rest) = some (len_bytes r.LEN ++
      (r.payload ++ (word_bytes r.CRC).reverse ++ r.junk ++ 0xBB :: rest)) := by
  obtain ⟨packet₁, hstart⟩ := h.start
  rw [← behind_header_frame _ hstart r.cmd_ok]
  simp [bytes, body]

/-- The frame that a call has come to is regular exactly if its length is and it has read no byte too
many. -/
theorem PacketReading.regular_iff (h : r.Of packet₀ packet) (rest : List UInt8) :
    regular_frame (r.bytes ++ rest) = true ↔
      (1 ≤ r.LEN ∧ r.LEN ≤ MAX_DATA_SIZE_BYTES) ∧ r.junk = [] := by
  rw [regular_frame, PacketReading.behind h rest]
  simp only [len_bytes, List.cons_append, List.nil_append, len_bytes_toNat r.len_ok,
    Bool.and_eq_true, decide_eq_true_eq, beq_iff_eq]
  refine and_congr_right fun hlen => ?_
  have hpayload : r.payload.length = r.LEN := by rw [r.payload_length]; omega
  have hlast : (r.payload ++ (word_bytes r.CRC).reverse ++ r.junk ++ 0xBB :: rest)[r.LEN + 4]? =
      (r.junk ++ 0xBB :: rest)[0]? := by
    rw [List.append_assoc, List.getElem?_append_right (by simp [hpayload, word_bytes_length])]
    simp [hpayload, word_bytes_length]
  rw [hlast]
  cases hjunk : r.junk with
  | nil => exact ⟨fun _ => rfl, fun _ => rfl⟩
  | cons b junk =>
    refine ⟨fun hb => ?_, fun he => by cases he⟩
    cases hb
    exact (r.junk_ok (hjunk ▸ List.mem_cons_self)).elim

theorem len_bytes_inj {m n : Nat} (hm : m < 65536) (hn : n < 65536)
    (h : len_bytes m = len_bytes n) : m = n := by
  obtain ⟨hhi, hlo, -⟩ : UInt8.ofNat (m / 256) = UInt8.ofNat (n / 256) ∧
      UInt8.ofNat m = UInt8.ofNat n ∧ True := by simpa [len_bytes] using h
  rw [← len_bytes_toNat hm, hhi, hlo, len_bytes_toNat hn]

/-- The frame that was read, when its length is not zero. -/
def PacketReading.frame (r : PacketReading) (hlen : 1 ≤ r.LEN ∧ r.LEN ≤ MAX_DATA_SIZE_BYTES) :
    DfuFrame where
  CMD := r.CMD
  DATA := r.payload
  CRC := r.CRC
  cmd_ok := r.cmd_ok
  len_ok := by rw [r.payload_length, Nat.max_eq_right hlen.1]; exact hlen.2

theorem PacketReading.frame_body (hlen : 1 ≤ r.LEN ∧ r.LEN ≤ MAX_DATA_SIZE_BYTES) :
    (r.frame hlen).body = r.body := by
  show 0xAA :: r.CMD :: len_bytes r.payload.length ++ _ ++ _ = r.body
  rw [r.payload_length, Nat.max_eq_right hlen.1]
  rfl

theorem PacketReading.frame_fields (h : r.Of packet₀ packet)
    (hlen : 1 ≤ r.LEN ∧ r.LEN ≤ MAX_DATA_SIZE_BYTES) : (r.frame hlen).Fields packet where
  CMD := h.CMD
  LEN := h.LEN.trans (by rw [frame, r.payload_length, Nat.max_eq_right hlen.1])
  DATA := h.DATA
  CRC := h.CRC

/-- The parser comes to one frame only. -/
theorem PacketReading.last_byte (h : r.Of packet₀ packet)
    (hlen : 1 ≤ r.LEN ∧ r.LEN ≤ MAX_DATA_SIZE_BYTES) (hjunk : r.junk = [])
    {pre : List UInt8} {f : DfuFrame} {b : UInt8} {rest : List UInt8} {packet₁ : DFU_Packet}
    (hpre : packet_state .START packet₀ pre = some (.START, packet₁))
    (heq : r.bytes = pre ++ f.body ++ b :: rest) : b = 0xBB := by
  have hread := PacketReading.behind h []
  rw [List.append_nil, heq, f.behind _ hpre, Option.some_inj, hjunk, List.append_nil] at hread
  obtain ⟨hbytes, hrest⟩ := List.append_inj hread rfl
  have hsize : f.DATA.length = r.payload.length := by
    have hbuf : f.DATA.length ≤ 256 := f.len_ok
    rw [r.payload_length, Nat.max_eq_right hlen.1]
    exact len_bytes_inj (by omega) r.len_ok hbytes
  obtain ⟨-, hlast⟩ := List.append_inj hrest (by
    rw [List.length_append, List.length_append, hsize]
    rfl)
  exact (List.cons.inj hlast).1

theorem in_grammar_of_regular (h : r.Of packet₀ packet)
    (hlen : 1 ≤ r.LEN ∧ r.LEN ≤ MAX_DATA_SIZE_BYTES) (hjunk : r.junk = []) :
    InGrammar packet₀ r.bytes packet where
  frame := by
    refine ⟨r.pre, r.frame hlen, ?_, r.frame_fields h hlen⟩
    rw [DfuFrame.bytes, r.frame_body hlen, PacketReading.bytes, hjunk, List.append_nil,
      List.append_assoc]
  last_byte := by
    intro pre f b rest hpre heq
    obtain ⟨packet₁, hpre⟩ := hpre
    exact PacketReading.last_byte h hlen hjunk hpre heq

/-- A length of zero takes the first byte of the CRC for data, and one byte more for the CRC. -/
theorem in_grammar_len (h : r.Of packet₀ packet) (hg : InGrammar packet₀ r.bytes packet) :
    1 ≤ r.LEN := by
  rcases Nat.eq_zero_or_pos r.LEN with hzero | hpos
  · exfalso
    obtain ⟨x, hpayload⟩ : ∃ x, r.payload = [x] :=
      List.length_eq_one_iff.mp (by rw [r.payload_length, hzero]; rfl)
    obtain ⟨c1, c2, c3, c4, hcrc⟩ : ∃ c1 c2 c3 c4, (word_bytes r.CRC).reverse = [c1, c2, c3, c4] :=
      ⟨_, _, _, _, rfl⟩
    -- the frame without data that was sent: its last byte went to the CRC
    have hsent : r.bytes = r.pre ++ (⟨r.CMD, [], word c3 c2 c1 x, r.cmd_ok, Nat.zero_le _⟩ :
        DfuFrame).body ++ c4 :: (r.junk ++ [0xBB]) := by
      simp [PacketReading.bytes, PacketReading.body, DfuFrame.body, hzero, hpayload, hcrc,
        word_bytes_word]
    have hc4 : c4 = 0xBB := hg.last_byte r.pre _ c4 _ h.start hsent
    obtain ⟨pre, f, heq, hf⟩ := hg.frame
    have hdata : f.DATA = [] :=
      List.length_eq_zero_iff.mp (by rw [← hf.LEN, h.LEN, hzero])
    have hlast : r.pre ++ [0xAA] ++ [r.CMD, 0, 0, x, c1, c2, c3, c4] ++ r.junk =
        pre ++ [0xAA, r.CMD, 0, 0, c1, c2, c3, c4] := by
      refine (List.append_left_inj [0xBB]).mp ?_
      rw [PacketReading.bytes, PacketReading.body, DfuFrame.bytes, DfuFrame.body, hdata, hpayload,
        hzero, hcrc, ← hf.CMD, ← hf.CRC, h.CMD, h.CRC, hcrc] at heq
      simpa [len_bytes] using heq
    rcases List.eq_nil_or_concat r.junk with hnil | ⟨junk, y, hjunk⟩
    · rw [hnil, List.append_nil] at hlast
      obtain ⟨-, hbytes⟩ := List.append_inj' hlast rfl
      have hsof : r.CMD = 0xAA := (List.cons.inj hbytes).1
      have hcmd := r.cmd_ok
      rw [hsof] at hcmd
      exact absurd hcmd (by decide)
    · rw [hjunk, List.concat_eq_append, ← List.append_assoc,
        show [0xAA, r.CMD, 0, 0, c1, c2, c3, c4] = [0xAA, r.CMD, 0, 0, c1, c2, c3] ++ [c4] from rfl,
        ← List.append_assoc] at hlast
      obtain ⟨-, hbytes⟩ := List.append_inj' hlast rfl
      have hy : y = 0xBB := (List.cons.inj hbytes).1.trans hc4
      exact r.junk_ok (by rw [hjunk, List.concat_eq_append, hy]; simp)
  · exact hpos

theorem regular_of_in_grammar (h : r.Of packet₀ packet) (hg : InGrammar packet₀ r.bytes packet) :
    (1 ≤ r.LEN ∧ r.LEN ≤ MAX_DATA_SIZE_BYTES) ∧ r.junk = [] := by
  have hpos := in_grammar_len h hg
  obtain ⟨pre, f, -, hf⟩ := hg.frame
  have hlen : 1 ≤ r.LEN ∧ r.LEN ≤ MAX_DATA_SIZE_BYTES := by
    refine ⟨hpos, ?_⟩
    rw [← h.LEN, hf.LEN]
    exact f.len_ok
  refine ⟨hlen, ?_⟩
  cases hjunk : r.junk with
  | nil => rfl
  | cons b junk =>
    have hsent : r.bytes = r.pre ++ (r.frame hlen).body ++ b :: (junk ++ [0xBB]) := by
      rw [r.frame_body hlen, PacketReading.bytes, hjunk]
      simp
    have hb := hg.last_byte r.pre _ b _ h.start hsent
    exact (r.junk_ok (by rw [hjunk, hb]; exact List.mem_cons_self)).elim

end Accepted

/-- What a call of `dfu_packet_receive` has consumed when it returns `E_OK` is some bytes and a frame,
with the fields of the packet, that ends where the frame does, exactly if the first header is followed
by a length from one to 256 and the byte behind the CRC is `0xBB`. -/
theorem packet_grammar {packet₀ packet : DFU_Packet} {evs rest : List RxEvent}
    (h : packet_run .START packet₀ evs = some (E_OK, packet, rest)) :
    ∃ consumed, evs = consumed ++ rest ∧
      (InGrammar packet₀ (bytes_of consumed) packet ↔ regular_frame (bytes_of evs) = true) := by
  obtain ⟨consumed, rfl, hrun⟩ := packet_run_ok evs h
  obtain ⟨r, hread, hr⟩ := packet_bytes_reading hrun
  rw [List.append_nil] at hread
  refine ⟨consumed, rfl, ?_⟩
  have hbytes : bytes_of (consumed ++ rest) = r.bytes ++ bytes_of rest := by
    rw [← hread]
    exact List.filterMap_append
  rw [hbytes, PacketReading.regular_iff hr, hread]
  exact ⟨regular_of_in_grammar hr, fun hreg => in_grammar_of_regular hr hreg.1 hreg.2⟩

/-- Bytes behind the CRC are read up to the first `0xBB`. -/
theorem packet_bytes_junk (packet : DFU_Packet) (rest : List UInt8) : ∀ (junk : List UInt8),
    0xBB ∉ junk → packet_bytes .END packet (junk ++ 0xBB :: rest) = some (packet, rest)
  | [], _ => by
    rw [List.nil_append, packet_bytes, packet_byte_eof]
  | b :: junk, hjunk => by
    have hb : b ≠ 0xBB := fun he => hjunk (he ▸ List.mem_cons_self)
    rw [List.cons_append, packet_bytes_next (packet_byte_not_eof packet hb)]
    exact packet_bytes_junk packet rest junk fun hmem => hjunk (List.mem_cons_of_mem b hmem)

/-- A frame with data is taken with its fields, at the first `0xBB` behind it. -/
theorem packet_run_frame (packet₀ : DFU_Packet) {f : DfuFrame} (hdata : f.DATA ≠ [])
    {junk : List UInt8} (hjunk : 0xBB ∉ junk) (rest : List UInt8) :
    ∃ packet, packet_run .START packet₀ ((f.body ++ junk ++ 0xBB :: rest).map .byte) =
      some (E_OK, packet, rest.map .byte) ∧ f.Fields packet := by
  have hpos := List.length_pos_iff.mpr hdata
  have hbuf : f.DATA.length ≤ 256 := f.len_ok
  obtain ⟨packet, hstate, hCMD, hLEN, hDATA, hCRC⟩ := packet_state_body packet₀ f.CRC f.cmd_ok
    (show f.DATA.length < 65536 by omega) (Nat.max_eq_right hpos).symm
  refine ⟨packet, ?_, hCMD, hLEN, hDATA, hCRC⟩
  rw [packet_run_bytes, List.append_assoc, DfuFrame.body, packet_bytes_state _ _ hstate,
    packet_bytes_junk packet rest junk hjunk]
  rfl

/-- A `CMD_ABORT` as the host sends it. -/
def abort_frame : DfuFrame := ⟨CMD_ABORT, [0x00], 0, by decide, by decide⟩

def packet_clear : DFU_Packet := ⟨0, 0, fun _ => 0, 0⟩

/-- With a zero where its last byte belongs, it is accepted at the `0xBB` behind. -/
theorem packet_grammar_last_byte : ∃ packet,
    packet_run .START packet_clear ((abort_frame.body ++ [0x00] ++ [0xBB]).map .byte) =
      some (E_OK, packet, []) ∧
    ¬InGrammar packet_clear (abort_frame.body ++ [0x00] ++ [0xBB]) packet := by
  obtain ⟨packet, hrun, -⟩ := packet_run_frame packet_clear (f := abort_frame)
    (List.cons_ne_nil _ _) (by decide : (0xBB : UInt8) ∉ [0x00]) []
  refine ⟨packet, hrun, fun hg => ?_⟩
  have hzero : (0x00 : UInt8) = 0xBB := hg.last_byte [] abort_frame 0x00 [0xBB] ⟨_, rfl⟩ rfl
  exact absurd hzero (by decide)

/-- As it is, it is in the grammar. -/
theorem packet_grammar_abort : ∃ packet, InGrammar packet_clear abort_frame.bytes packet ∧
    packet.CMD = CMD_ABORT := by
  obtain ⟨packet, hrun, hf⟩ := packet_run_frame packet_clear (f := abort_frame)
    (List.cons_ne_nil _ _) (by decide : (0xBB : UInt8) ∉ []) []
  obtain ⟨consumed, hconsumed, hiff⟩ := packet_grammar hrun
  obtain rfl : abort_frame.bytes.map .byte = consumed := hconsumed.trans (List.append_nil consumed)
  exact ⟨packet, hiff.mpr (by decide), hf.CMD⟩

/-! ## What the host sends -/

/-- Calls of `dfu_packet_receive`, one behind the other: their results and the events that are left. -/
def receive_packets : Nat → DFU_Packet → List RxEvent →
    Option (List (StatusCode × DFU_Packet) × List RxEvent)
  | 0, _, evs => some ([], evs)
  | n + 1, packet, evs =>
    match packet_run .START packet evs with
    | none => none
    | some (code, packet, evs) =>
      (receive_packets n packet evs).map fun r => ((code, packet) :: r.1, r.2)

theorem receive_packets_succ {n : Nat} {packet packet' : DFU_Packet} {evs evs' : List RxEvent}
    {code : StatusCode} (h : packet_run .START packet evs = some (code, packet', evs')) :
    receive_packets (n + 1) packet evs =
      (receive_packets n packet' evs').map fun r => ((code, packet') :: r.1, r.2) := by
  rw [receive_packets, h]

/-- The frame that `build_packet` makes. -/
theorem build_packet_frame {cmd : UInt8} {data : List UInt8}
    (hcmd : CMD_REQ ≤ cmd ∧ cmd < NUM_CMDS) (hlen : data.length ≤ MAX_DATA_SIZE_BYTES) :
    build_packet cmd data = (⟨cmd, data, 0, hcmd, hlen⟩ : DfuFrame).body ++ [0xBB] :=
  DfuReceive.build_packet_eq cmd data

/-- Every list of packets that the host may send arrives: as many calls as packets return `E_OK` with
the commands, lengths and payloads in order, and leave nothing. -/
theorem packet_round_trip (ps : List (UInt8 × List UInt8)) : ∀ (packet₀ : DFU_Packet),
    (∀ p ∈ ps, (CMD_REQ ≤ p.1 ∧ p.1 < NUM_CMDS) ∧ 1 ≤ p.2.length ∧
      p.2.length ≤ MAX_DATA_SIZE_BYTES) →
    ∃ packets : List DFU_Packet,
      receive_packets ps.length packet₀ ((ps.flatMap fun p => build_packet p.1 p.2).map .byte) =
        some (packets.map fun packet => (E_OK, packet), []) ∧
      packets.map (fun packet => (packet.CMD, packet.LEN, bytes_at packet.DATA 0 packet.LEN)) =
        ps.map fun p => (p.1, p.2.length, p.2) := by
  induction ps with
  | nil => exact fun _ _ => ⟨[], rfl, rfl⟩
  | cons p ps ih =>
    intro packet₀ h
    obtain ⟨hcmd, hpos, hlen⟩ := h p List.mem_cons_self
    obtain ⟨packet, hrun, hf⟩ := packet_run_frame packet₀ (f := ⟨p.1, p.2, 0, hcmd, hlen⟩)
      (List.ne_nil_of_length_pos hpos) (List.not_mem_nil : (0xBB : UInt8) ∉ [])
      (ps.flatMap fun p => build_packet p.1 p.2)
    obtain ⟨packets, hpackets, hfields⟩ := ih packet fun p' hp' => h p' (List.mem_cons_of_mem p hp')
    refine ⟨packet :: packets, ?_, ?_⟩
    · have hsent : (p :: ps).flatMap (fun p => build_packet p.1 p.2) =
          (⟨p.1, p.2, 0, hcmd, hlen⟩ : DfuFrame).body ++ [] ++
            0xBB :: ps.flatMap fun p => build_packet p.1 p.2 := by
        rw [List.flatMap_cons, build_packet_frame hcmd hlen]
        simp
      rw [hsent, List.length_cons, receive_packets_succ hrun, hpackets]
      rfl
    · have hhead : (packet.CMD, packet.LEN, bytes_at packet.DATA 0 packet.LEN) =
          (p.1, p.2.length, p.2) := by
        rw [hf.CMD, hf.LEN, hf.DATA]
      rw [List.map_cons, List.map_cons, hhead, hfields]

/-- Payloads that hold the first and the last byte of a frame. -/
theorem packet_round_trip_framing : ∃ packets : List DFU_Packet,
    receive_packets 2 packet_clear
        ((build_packet CMD_DATA [0xBB, 0xAA] ++ (build_packet CMD_FINISH [0xAA] ++ [])).map .byte) =
      some (packets.map fun packet => (E_OK, packet), []) ∧
    packets.map (fun packet => (packet.CMD, packet.LEN, bytes_at packet.DATA 0 packet.LEN)) =
      [(CMD_DATA, 2, [0xBB, 0xAA]), (CMD_FINISH, 1, [0xAA])] :=
  packet_round_trip [(CMD_DATA, [0xBB, 0xAA]), (CMD_FINISH, [0xAA])] packet_clear (by decide)

/-! ## Noise -/

/-- What may stand before a frame. -/
inductive Noise where
  | byte (b : UInt8) (not_sof : b ≠ 0xAA)
  | bad_header (b : UInt8) (not_cmd : ¬(CMD_REQ ≤ b ∧ b < NUM_CMDS)) (not_sof : b ≠ 0xAA)

def Noise.bytes : Noise → List UInt8
  | .byte b _ => [b]
  | .bad_header b _ _ => [0xAA, b]

def Noise.is_header : Noise → Bool
  | .byte _ _ => false
  | .bad_header _ _ _ => true

/-- The bad headers behind the last other byte. -/
def trailing_headers (ns : List Noise) : Nat := (ns.reverse.takeWhile Noise.is_header).length

section Noise

variable (packet₀ : DFU_Packet)

theorem trailing_headers_append (ns : List Noise) (n : Noise) :
    trailing_headers (ns ++ [n]) = if n.is_header then trailing_headers ns + 1 else 0 := by
  unfold trailing_headers
  rw [List.reverse_append, List.reverse_singleton, List.singleton_append, List.takeWhile_cons]
  split
  · exact List.length_cons
  · rfl

/-- A bad header leaves the parser in `ERROR`, which swallows the byte behind it: the first byte of
the next bad header, for one. -/
theorem packet_state_noise (ns : List Noise) : ∃ packet,
    packet_state .START packet₀ (ns.flatMap Noise.bytes) =
      some (if trailing_headers ns % 2 = 0 then .START else .ERROR, packet) := by
  induction ns using List.reverseRecOn with
  | nil => exact ⟨packet₀, rfl⟩
  | append_singleton ns n ih =>
    obtain ⟨packet, hstate⟩ := ih
    rw [List.flatMap_append, packet_state_append _ _ hstate, trailing_headers_append,
      List.flatMap_singleton]
    cases n with
    | byte b hb =>
      split
      · exact ⟨packet, packet_state_next (packet_byte_skip packet hb)⟩
      · exact ⟨_, packet_state_next rfl⟩
    | bad_header b hc hb =>
      rw [if_pos (show (Noise.bad_header b hc hb).is_header = true from rfl)]
      split
      · rename_i heven
        rw [if_neg (by omega)]
        exact ⟨packet, (packet_state_next (packet_byte_sof packet)).trans
          (packet_state_next (packet_byte_not_cmd packet hc))⟩
      · rename_i hodd
        rw [if_pos (by omega)]
        exact ⟨_, (packet_state_next rfl).trans (packet_state_next (packet_byte_skip _ hb))⟩

theorem behind_header_length : ∀ (bytes : List UInt8) {tail : List UInt8},
    behind_header bytes = some tail → tail.length + 2 ≤ bytes.length
  | [], _, h => by cases h
  | b :: bytes, tail, h => by
    by_cases hb : b = 0xAA
    · subst hb
      rcases bytes with _ | ⟨c, bytes⟩
      · cases h
      · by_cases hc : CMD_REQ ≤ c ∧ c < NUM_CMDS
        · rw [behind_header_cmd hc] at h
          cases h
          exact Nat.le_refl _
        · rcases bytes with _ | ⟨d, bytes⟩
          · rw [behind_header, if_pos rfl, if_neg hc] at h
            cases h
          · rw [behind_header_bad hc] at h
            have hle := behind_header_length bytes h
            simp only [List.length_cons]
            omega
    · rw [behind_header_skip hb] at h
      have hle := behind_header_length bytes h
      rw [List.length_cons]
      omega

end Noise

/-- What is behind the header of an accepted frame takes up at least the rest of the frame. -/
theorem packet_run_behind {packet₀ packet : DFU_Packet} {bytes rest : List UInt8}
    (h : packet_run .START packet₀ (bytes.map .byte) = some (E_OK, packet, rest.map .byte)) :
    ∃ tail, behind_header bytes = some tail ∧ max 1 packet.LEN + 7 + rest.length ≤ tail.length := by
  rw [packet_run_bytes] at h
  obtain ⟨⟨packet', rest'⟩, hrun, heq⟩ := Option.map_eq_some_iff.mp h
  have hrest : rest' = rest :=
    List.map_injective_iff.mpr (fun _ _ h => RxEvent.byte.inj h) (Prod.mk.inj (Prod.mk.inj heq).2).2
  have hpacket : packet' = packet := (Prod.mk.inj (Prod.mk.inj heq).2).1
  obtain ⟨r, rfl, hr⟩ := packet_bytes_reading hrun
  refine ⟨_, PacketReading.behind hr rest', ?_⟩
  rw [← hpacket, ← hrest, hr.LEN]
  simp only [List.length_append, List.length_cons, r.payload_length, List.length_reverse,
    word_bytes_length, len_bytes, List.length_nil]
  omega

/-- Behind noise, the next call returns `E_OK` with the fields of a frame, and reads up to its end,
exactly if the frame has data and the bad headers right before it are even in number. -/
theorem packet_resync (packet₀ : DFU_Packet) (ns : List Noise) (f : DfuFrame) (rest : List UInt8) :
    (∃ packet, packet_run .START packet₀
        ((ns.flatMap Noise.bytes ++ f.bytes ++ rest).map .byte) =
          some (E_OK, packet, rest.map .byte) ∧ f.Fields packet) ↔
      f.DATA ≠ [] ∧ trailing_headers ns % 2 = 0 := by
  obtain ⟨packet₁, hnoise⟩ := packet_state_noise packet₀ ns
  have hbytes : ns.flatMap Noise.bytes ++ f.bytes ++ rest =
      ns.flatMap Noise.bytes ++ (f.body ++ [] ++ 0xBB :: rest) := by
    simp [DfuFrame.bytes]
  constructor
  · rintro ⟨packet, hrun, hf⟩
    obtain ⟨tail, hbehind, hlen⟩ := packet_run_behind hrun
    rw [hf.LEN] at hlen
    split at hnoise
    · rename_i heven
      refine ⟨fun hdata => ?_, heven⟩
      rw [hbytes, ← List.append_assoc, List.append_nil, f.behind _ hnoise] at hbehind
      cases hbehind
      rw [hdata] at hlen
      simp only [List.length_append, List.length_cons, List.length_reverse, word_bytes_length,
        len_bytes, List.length_nil] at hlen
      omega
    · exfalso
      -- the frame's `0xAA` is swallowed, and what is left of it is too short
      have hsof : packet_state .START packet₀ (ns.flatMap Noise.bytes ++ [0xAA]) =
          some (.START, { packet₁ with CMD := 0, CRC := 0, LEN := 0 }) :=
        (packet_state_append _ _ hnoise).trans rfl
      have hswallowed : ns.flatMap Noise.bytes ++ f.bytes ++ rest =
          ns.flatMap Noise.bytes ++ [0xAA] ++ (f.CMD :: (len_bytes f.DATA.length ++
            (f.DATA ++ (word_bytes f.CRC).reverse ++ 0xBB :: rest))) := by
        simp [DfuFrame.bytes, DfuFrame.body]
      rw [hswallowed, behind_header_start _ _ hsof] at hbehind
      have hle := behind_header_length _ hbehind
      simp only [List.length_append, List.length_cons, List.length_reverse, word_bytes_length,
        len_bytes, List.length_nil] at hle
      omega
  · rintro ⟨hdata, heven⟩
    rw [if_pos heven] at hnoise
    obtain ⟨packet, hrun, hf⟩ := packet_run_frame packet₁ hdata
      (List.not_mem_nil : (0xBB : UInt8) ∉ []) rest
    refine ⟨packet, ?_, hf⟩
    rw [packet_run_bytes] at hrun ⊢
    rw [hbytes, packet_bytes_state _ _ hnoise]
    exact hrun

/-- `0xAA 0xFF` costs the frame behind it. -/
theorem packet_resync_bad_header : ¬∃ packet,
    packet_run .START packet_clear
        (([Noise.bad_header 0xFF (by decide) (by decide)].flatMap Noise.bytes ++ abort_frame.bytes ++
          []).map .byte) = some (E_OK, packet, [].map .byte) ∧
      abort_frame.Fields packet := by
  rintro ⟨packet, hrun, -⟩
  obtain ⟨tail, hbehind, -⟩ := packet_run_behind hrun
  have hnone : behind_header ([0xAA, 0xFF] ++ abort_frame.bytes) = none := by decide
  exact absurd (hnone.symm.trans hbehind) (by simp)

end Rpitos
