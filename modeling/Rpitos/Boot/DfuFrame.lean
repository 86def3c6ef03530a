import Mathlib.Data.List.GetD
import Rpitos.Boot.PacketRuns

/-!
# Boot.DfuFrame

A whole call of `dfu_packet_receive`, and the frames of the wire protocol. `packet_state_body`: a
frame with a payload is taken as it is. `packet_bytes_reading`: what a call that returns has read, for
every stream of bytes.
-/

namespace Rpitos

open Function StatusCode

/-- A call of `dfu_packet_receive` from `pc` on: its result, the packet and the events that are left,
or `none` while it waits for more. -/
def packet_run (pc : PacketPc) (packet : DFU_Packet) :
    List RxEvent → Option (StatusCode × DFU_Packet × List RxEvent)
  | [] => none
  | ev :: evs =>
    match dfu_packet_receive pc packet ev with
    | .next pc packet => packet_run pc packet evs
    | .returns code packet => some (code, packet, evs)

/-- The same when only bytes arrive. -/
def packet_bytes (pc : PacketPc) (packet : DFU_Packet) :
    List UInt8 → Option (DFU_Packet × List UInt8)
  | [] => none
  | b :: bytes =>
    match dfu_packet_byte pc packet b with
    | .next pc packet => packet_bytes pc packet bytes
    | .returns _ packet => some (packet, bytes)

/-- Where a call is behind these bytes, if it has not returned. -/
def packet_state (pc : PacketPc) (packet : DFU_Packet) : List UInt8 → Option (PacketPc × DFU_Packet)
  | [] => some (pc, packet)
  | b :: bytes =>
    match dfu_packet_byte pc packet b with
    | .next pc packet => packet_state pc packet bytes
    | .returns _ _ => none

/-- The bytes among the events. -/
def bytes_of (evs : List RxEvent) : List UInt8 :=
  evs.filterMap fun ev => match ev with | .byte b => some b | .silence => none

/-- A frame of the wire protocol: `[0xAA][CMD][LEN hi][LEN lo][DATA][CRC][0xBB]`. -/
structure DfuFrame where
  CMD : UInt8
  DATA : List UInt8
  CRC : UInt32
  cmd_ok : CMD_REQ ≤ CMD ∧ CMD < NUM_CMDS
  len_ok : DATA.length ≤ MAX_DATA_SIZE_BYTES

/-- The length field. -/
def len_bytes (LEN : Nat) : List UInt8 := [UInt8.ofNat (LEN / 256), UInt8.ofNat LEN]

/-- Up to the byte behind the CRC. -/
def DfuFrame.body (f : DfuFrame) : List UInt8 :=
  0xAA :: f.CMD :: len_bytes f.DATA.length ++ f.DATA ++ (word_bytes f.CRC).reverse

def DfuFrame.bytes (f : DfuFrame) : List UInt8 := f.body ++ [0xBB]

/-- The packet holds the fields of the frame. -/
structure DfuFrame.Fields (f : DfuFrame) (packet : DFU_Packet) : Prop where
  CMD : packet.CMD = f.CMD
  LEN : packet.LEN = f.DATA.length
  DATA : bytes_at packet.DATA 0 f.DATA.length = f.DATA
  CRC : packet.CRC = f.CRC

section Steps

variable {pc pc' : PacketPc} {packet packet' : DFU_Packet} {b : UInt8} {bytes : List UInt8}

theorem packet_byte_sof (packet : DFU_Packet) :
    dfu_packet_byte .START packet 0xAA = .next .CMD packet := rfl

theorem packet_byte_skip (packet : DFU_Packet) (hb : b ≠ 0xAA) :
    dfu_packet_byte .START packet b = .next .START packet := by
  show PacketStep.next (if b = 0xAA then .CMD else .START) packet = _
  rw [if_neg hb]

theorem packet_byte_cmd (packet : DFU_Packet) (hb : CMD_REQ ≤ b ∧ b < NUM_CMDS) :
    dfu_packet_byte .CMD packet b = .next .LENGTH { packet with CMD := b } := if_pos hb

theorem packet_byte_not_cmd (packet : DFU_Packet) (hb : ¬(CMD_REQ ≤ b ∧ b < NUM_CMDS)) :
    dfu_packet_byte .CMD packet b = .next .ERROR packet := if_neg hb

theorem packet_byte_eof (packet : DFU_Packet) :
    dfu_packet_byte .END packet 0xBB = .returns E_OK packet := rfl

theorem packet_byte_not_eof (packet : DFU_Packet) (hb : b ≠ 0xBB) :
    dfu_packet_byte .END packet b = .next .END packet := if_neg hb

theorem packet_bytes_next (h : dfu_packet_byte pc packet b = .next pc' packet') :
    packet_bytes pc packet (b :: bytes) = packet_bytes pc' packet' bytes := by
  rw [packet_bytes, h]

theorem packet_state_next (h : dfu_packet_byte pc packet b = .next pc' packet') :
    packet_state pc packet (b :: bytes) = packet_state pc' packet' bytes := by
  rw [packet_state, h]

/-- A byte that ends the call ends it with `E_OK`, in the state `END`. -/
theorem dfu_packet_byte_returns {code : StatusCode}
    (h : dfu_packet_byte pc packet b = .returns code packet') :
    code = E_OK ∧ packet' = packet ∧ pc = .END ∧ b = 0xBB := by
  cases pc with
  | END =>
    simp only [dfu_packet_byte] at h
    split at h
    · rename_i hb
      cases h
      exact ⟨rfl, rfl, rfl, hb⟩
    · cases h
  | CMD =>
    simp only [dfu_packet_byte] at h
    split at h <;> cases h
  | _ => cases h

/-- A call that does not return on some bytes goes on behind the first of them. -/
theorem packet_state_cons {s : PacketPc × DFU_Packet}
    (h : packet_state pc packet (b :: bytes) = some s) :
    ∃ pc₁ packet₁, dfu_packet_byte pc packet b = .next pc₁ packet₁ ∧
      packet_state pc₁ packet₁ bytes = some s := by
  cases hb : dfu_packet_byte pc packet b with
  | next pc₁ packet₁ =>
    rw [packet_state_next hb] at h
    exact ⟨pc₁, packet₁, rfl, h⟩
  | returns code packet₁ =>
    rw [packet_state, hb] at h
    cases h

/-- What a call does behind some bytes it does not return on. -/
theorem packet_bytes_state (bytes rest : List UInt8) : ∀ {pc : PacketPc} {packet : DFU_Packet},
    packet_state pc packet bytes = some (pc', packet') →
    packet_bytes pc packet (bytes ++ rest) = packet_bytes pc' packet' rest := by
  induction bytes with
  | nil =>
    intro pc packet h
    cases h
    rfl
  | cons b bytes ih =>
    intro pc packet h
    obtain ⟨pc₁, packet₁, hb, h⟩ := packet_state_cons h
    rw [List.cons_append, packet_bytes_next hb]
    exact ih h

theorem packet_state_append (bytes rest : List UInt8) : ∀ {pc : PacketPc} {packet : DFU_Packet},
    packet_state pc packet bytes = some (pc', packet') →
    packet_state pc packet (bytes ++ rest) = packet_state pc' packet' rest := by
  induction bytes with
  | nil =>
    intro pc packet h
    cases h
    rfl
  | cons b bytes ih =>
    intro pc packet h
    obtain ⟨pc₁, packet₁, hb, h⟩ := packet_state_cons h
    rw [List.cons_append, packet_state_next hb]
    exact ih h

/-- Without silences, a call sees the bytes one behind the other. -/
theorem packet_run_bytes (bytes : List UInt8) : ∀ (pc : PacketPc) (packet : DFU_Packet),
    packet_run pc packet (bytes.map .byte) =
      (packet_bytes pc packet bytes).map fun r => (E_OK, r.1, r.2.map .byte) := by
  induction bytes with
  | nil => exact fun _ _ => rfl
  | cons b bytes ih =>
    intro pc packet
    rw [List.map_cons, packet_run, packet_bytes, dfu_packet_receive]
    cases hb : dfu_packet_byte pc packet b with
    | next pc' packet' => exact ih pc' packet'
    | returns code packet' =>
      obtain ⟨rfl, -, -, -⟩ := dfu_packet_byte_returns hb
      rfl

/-- A call that returns `E_OK` has waited through every silence it met. -/
theorem packet_run_ok {rest : List RxEvent} (evs : List RxEvent) : ∀ {pc : PacketPc}
    {packet : DFU_Packet}, packet_run pc packet evs = some (E_OK, packet', rest) →
    ∃ consumed, evs = consumed ++ rest ∧
      packet_bytes pc packet (bytes_of consumed) = some (packet', []) := by
  induction evs with
  | nil => exact fun h => by cases h
  | cons ev evs ih =>
    intro pc packet h
    rw [packet_run] at h
    cases ev with
    | silence =>
      simp only [dfu_packet_receive] at h
      split at h
      · rename_i hstep
        split at hstep
        · cases hstep
        · cases hstep
          obtain ⟨consumed, rfl, hrun⟩ := ih h
          exact ⟨.silence :: consumed, rfl, hrun⟩
      · rename_i hstep
        split at hstep
        · cases hstep
          cases h
        · cases hstep
    | byte b =>
      rw [dfu_packet_receive] at h
      cases hb : dfu_packet_byte pc packet b with
      | next pc₁ packet₁ =>
        rw [hb] at h
        obtain ⟨consumed, rfl, hrun⟩ := ih h
        refine ⟨.byte b :: consumed, rfl, ?_⟩
        exact (packet_bytes_next hb).trans hrun
      | returns code packet₁ =>
        rw [hb] at h
        cases h
        refine ⟨[.byte b], rfl, ?_⟩
        show packet_bytes pc packet [b] = _
        rw [packet_bytes, hb]

end Steps

section Frames

variable {pc : PacketPc} {packet packet' : DFU_Packet} {bytes rest : List UInt8}

/-- What is in a call that does not return on some bytes does not return on the first of them. -/
theorem packet_state_prefix (bytes rest : List UInt8) : ∀ {pc : PacketPc} {packet : DFU_Packet}
    {s : PacketPc × DFU_Packet}, packet_state pc packet (bytes ++ rest) = some s →
    ∃ s', packet_state pc packet bytes = some s' := by
  induction bytes with
  | nil => exact fun _ => ⟨_, rfl⟩
  | cons b bytes ih =>
    intro pc packet s h
    rw [List.cons_append] at h
    obtain ⟨pc₁, packet₁, hb, h⟩ := packet_state_cons h
    rw [packet_state_next hb]
    exact ih h

/-- A call that needs `n` bytes and returns has had them. -/
theorem packet_bytes_split {n : Nat} {r : DFU_Packet × List UInt8}
    (hn : ∀ data : List UInt8, data.length = n → ∃ s, packet_state pc packet data = some s)
    (h : packet_bytes pc packet bytes = some r) :
    ∃ data tail, bytes = data ++ tail ∧ data.length = n := by
  by_cases hlen : n ≤ bytes.length
  · exact ⟨bytes.take n, bytes.drop n, (List.take_append_drop n bytes).symm,
      List.length_take_of_le hlen⟩
  · obtain ⟨s, hs⟩ := hn (bytes ++ List.replicate (n - bytes.length) 0) (by
      rw [List.length_append, List.length_replicate]
      omega)
    obtain ⟨s', hs'⟩ := packet_state_prefix bytes _ hs
    have hnone := packet_bytes_state bytes [] hs'
    rw [List.append_nil, h] at hnone
    cases hnone

/-- The payload loop, to the end of the payload. -/
theorem packet_state_rest (data : List UInt8) : ∀ (packet : DFU_Packet) (r : Nat), data ≠ [] →
    r + data.length = packet.LEN →
    ∃ DATA, packet_state (.PAYLOAD_REST r) packet data = some (.CRC, { packet with DATA := DATA }) ∧
      (∀ i, i < r → DATA i = packet.DATA i) ∧
      ∀ i, i < data.length → DATA (r + i) = data.getD i 0 := by
  induction data with
  | nil => exact fun packet r hne => (hne rfl).elim
  | cons b data ih =>
    intro packet r _ hlen
    rw [List.length_cons] at hlen
    rw [packet_state_next rfl]
    cases data with
    | nil =>
      have hlast : ¬r + 1 < packet.LEN := by rw [List.length_nil] at hlen; omega
      refine ⟨update packet.DATA r b, ?_, fun i hi => update_of_ne (by omega) .., fun i hi => ?_⟩
      · unfold payload_next
        rw [if_neg hlast]
        rfl
      · rw [List.length_singleton] at hi
        rw [show i = 0 by omega, Nat.add_zero, update_self]
        rfl
    | cons b' data =>
      have hmore : r + 1 < packet.LEN := by rw [List.length_cons] at hlen; omega
      unfold payload_next
      rw [if_pos hmore]
      obtain ⟨DATA, heq, hkept, hnew⟩ := ih { packet with DATA := update packet.DATA r b } (r + 1)
        (List.cons_ne_nil _ _) (by show r + 1 + _ = packet.LEN; omega)
      refine ⟨DATA, heq, fun i hi => ?_, fun i hi => ?_⟩
      · rw [hkept i (by omega)]
        exact update_of_ne (by omega) ..
      · cases i with
        | zero =>
          rw [Nat.add_zero, hkept r (by omega)]
          exact update_self ..
        | succ i =>
          rw [show r + (i + 1) = r + 1 + i by omega,
            hnew i (by rw [List.length_cons (a := b)] at hi; omega)]
          rfl

theorem bytes_at_eq {buf : Sector} {data : List UInt8}
    (h : ∀ i, i < data.length → buf i = data.getD i 0) : bytes_at buf 0 data.length = data := by
  refine List.ext_getElem (by simp [bytes_at]) fun i hi hi' => ?_
  simp only [bytes_at, List.getElem_map, List.getElem_range, Nat.zero_add]
  rw [h i hi', List.getD_eq_getElem _ _ hi']

/-- The state `PAYLOAD` takes a byte even when the length is zero. -/
theorem packet_state_payload (packet : DFU_Packet) {data : List UInt8}
    (hlen : data.length = max 1 packet.LEN) :
    ∃ DATA, packet_state .PAYLOAD packet data = some (.CRC, { packet with DATA := DATA }) ∧
      bytes_at DATA 0 data.length = data := by
  cases data with
  | nil => rw [List.length_nil] at hlen; omega
  | cons b data =>
    rw [List.length_cons] at hlen
    rw [packet_state_next rfl]
    cases data with
    | nil =>
      have hlast : ¬0 + 1 < packet.LEN := by rw [List.length_nil] at hlen; omega
      unfold payload_next
      rw [if_neg hlast]
      refine ⟨_, rfl, bytes_at_eq fun i hi => ?_⟩
      rw [List.length_singleton] at hi
      rw [show i = 0 by omega, update_self]
      rfl
    | cons b' data =>
      have hmore : 0 + 1 < packet.LEN := by rw [List.length_cons] at hlen; omega
      unfold payload_next
      rw [if_pos hmore]
      obtain ⟨DATA, heq, hkept, hnew⟩ := packet_state_rest (b' :: data)
        { packet with DATA := update packet.DATA 0 b } 1 (List.cons_ne_nil _ _)
        (by show 1 + _ = packet.LEN; omega)
      refine ⟨DATA, heq, bytes_at_eq fun i hi => ?_⟩
      cases i with
      | zero =>
        rw [hkept 0 Nat.zero_lt_one]
        exact update_self 0 b packet.DATA
      | succ i =>
        rw [Nat.add_comm, hnew i (by rw [List.length_cons (a := b)] at hi; omega), Nat.add_comm]
        rfl

/-- The bytes of the CRC, highest first. -/
theorem packet_state_crc (packet : DFU_Packet) (CRC : UInt32) :
    packet_state .CRC packet (word_bytes CRC).reverse = some (.END, { packet with CRC := CRC }) :=
  congrArg (fun crc => some (PacketPc.END, ({ packet with CRC := crc } : DFU_Packet)))
    (word_of_bytes CRC)

theorem len_bytes_toNat {LEN : Nat} (h : LEN < 65536) :
    (UInt8.ofNat (LEN / 256)).toNat * 256 + (UInt8.ofNat LEN).toNat = LEN := by
  simp only [UInt8.toNat_ofNat']
  omega

/-- Header, payload and CRC, from the state `START` to `END`; the payload has a byte at least. -/
theorem packet_state_body (packet : DFU_Packet) {CMD : UInt8} {LEN : Nat} {data : List UInt8}
    (CRC : UInt32) (hcmd : CMD_REQ ≤ CMD ∧ CMD < NUM_CMDS) (hLEN : LEN < 65536)
    (hlen : data.length = max 1 LEN) :
    ∃ packet', packet_state .START packet
        (0xAA :: CMD :: len_bytes LEN ++ data ++ (word_bytes CRC).reverse) = some (.END, packet') ∧
      packet'.CMD = CMD ∧ packet'.LEN = LEN ∧ bytes_at packet'.DATA 0 data.length = data ∧
      packet'.CRC = CRC := by
  obtain ⟨DATA, hdata, hbytes⟩ := packet_state_payload { packet with CMD := CMD, LEN := LEN } hlen
  refine ⟨{ packet with CMD := CMD, LEN := LEN, DATA := DATA, CRC := CRC }, ?_, rfl, rfl, hbytes, rfl⟩
  have hcons : 0xAA :: CMD :: len_bytes LEN ++ data ++ (word_bytes CRC).reverse =
      0xAA :: CMD :: UInt8.ofNat (LEN / 256) :: UInt8.ofNat LEN ::
        (data ++ (word_bytes CRC).reverse) := by
    unfold len_bytes
    simp
  rw [hcons, packet_state_next (packet_byte_sof packet),
    packet_state_next (packet_byte_cmd packet hcmd), packet_state_next rfl, packet_state_next rfl]
  dsimp only
  rw [len_bytes_toNat hLEN, packet_state_append _ _ hdata]
  exact packet_state_crc _ CRC

end Frames

/-- What a call reads before it returns: some bytes that lead back to `START`, a header, a payload of
a byte at least, the CRC, and whatever comes before the next `0xBB`. -/
structure PacketReading where
  pre : List UInt8
  CMD : UInt8
  LEN : Nat
  payload : List UInt8
  CRC : UInt32
  junk : List UInt8
  cmd_ok : CMD_REQ ≤ CMD ∧ CMD < NUM_CMDS
  len_ok : LEN < 65536
  payload_length : payload.length = max 1 LEN
  junk_ok : 0xBB ∉ junk

namespace PacketReading

def body (r : PacketReading) : List UInt8 :=
  0xAA :: r.CMD :: len_bytes r.LEN ++ r.payload ++ (word_bytes r.CRC).reverse

def bytes (r : PacketReading) : List UInt8 := r.pre ++ r.body ++ r.junk ++ [0xBB]

/-- The call that reads this turns `packet₀` into `packet`. -/
structure Of (r : PacketReading) (packet₀ packet : DFU_Packet) : Prop where
  start : ∃ packet₁, packet_state .START packet₀ r.pre = some (.START, packet₁)
  CMD : packet.CMD = r.CMD
  LEN : packet.LEN = r.LEN
  DATA : bytes_at packet.DATA 0 r.payload.length = r.payload
  CRC : packet.CRC = r.CRC

end PacketReading

section Reading

variable {packet packet' packet₀ : DFU_Packet} {rest : List UInt8}

/-- `END` waits for the next `0xBB`. -/
theorem packet_bytes_end (bytes : List UInt8) :
    packet_bytes .END packet bytes = some (packet', rest) → packet' = packet ∧
      ∃ junk, bytes = junk ++ 0xBB :: rest ∧ 0xBB ∉ junk := by
  induction bytes with
  | nil => exact fun h => by cases h
  | cons b bytes ih =>
    intro h
    by_cases hb : b = 0xBB
    · subst hb
      rw [packet_bytes, packet_byte_eof] at h
      cases h
      exact ⟨rfl, [], rfl, List.not_mem_nil⟩
    · rw [packet_bytes_next (packet_byte_not_eof packet hb)] at h
      obtain ⟨hpacket, junk, rfl, hjunk⟩ := ih h
      refine ⟨hpacket, b :: junk, rfl, fun hmem => ?_⟩
      rcases List.mem_cons.mp hmem with he | hmem
      · exact hb he.symm
      · exact hjunk hmem

/-- From `START`, a call that returns has found `0xAA` and a command. The bytes before them, among
which the one behind a bad header is not looked at, lead back to `START`. -/
theorem packet_bytes_start {r : DFU_Packet × List UInt8} : ∀ (bytes : List UInt8)
    (packet₀ : DFU_Packet), packet_bytes .START packet₀ bytes = some r →
    ∃ pre packet₁ CMD tail, bytes = pre ++ 0xAA :: CMD :: tail ∧
      packet_state .START packet₀ pre = some (.START, packet₁) ∧
      (CMD_REQ ≤ CMD ∧ CMD < NUM_CMDS) ∧
      packet_bytes .LENGTH { packet₁ with CMD := CMD } tail = some r
  | [], _, h => by cases h
  | b :: bytes, packet₀, h => by
    by_cases hb : b = 0xAA
    · subst hb
      rw [packet_bytes_next (packet_byte_sof packet₀)] at h
      rcases bytes with _ | ⟨c, bytes⟩
      · cases h
      · by_cases hc : CMD_REQ ≤ c ∧ c < NUM_CMDS
        · rw [packet_bytes_next (packet_byte_cmd packet₀ hc)] at h
          exact ⟨[], packet₀, c, bytes, rfl, rfl, hc, h⟩
        · rw [packet_bytes_next (packet_byte_not_cmd packet₀ hc)] at h
          rcases bytes with _ | ⟨d, bytes⟩
          · cases h
          · rw [packet_bytes_next rfl] at h
            obtain ⟨pre, packet₁, CMD, tail, rfl, hstate, hcmd, hrun⟩ := packet_bytes_start bytes _ h
            refine ⟨0xAA :: c :: d :: pre, packet₁, CMD, tail, rfl, ?_, hcmd, hrun⟩
            rw [packet_state_next (packet_byte_sof packet₀),
              packet_state_next (packet_byte_not_cmd packet₀ hc), packet_state_next rfl]
            exact hstate
    · have hskip := packet_byte_skip packet₀ hb
      rw [packet_bytes_next hskip] at h
      obtain ⟨pre, packet₁, CMD, tail, rfl, hstate, hcmd, hrun⟩ := packet_bytes_start bytes _ h
      exact ⟨b :: pre, packet₁, CMD, tail, rfl, (packet_state_next hskip).trans hstate, hcmd, hrun⟩

theorem len_bytes_eq (msb lsb : UInt8) : len_bytes (msb.toNat * 256 + lsb.toNat) = [msb, lsb] := by
  have hmsb := msb.toNat_lt
  have hlsb := lsb.toNat_lt
  have hhi : UInt8.ofNat ((msb.toNat * 256 + lsb.toNat) / 256) = msb := by
    apply UInt8.toNat_inj.mp
    rw [UInt8.toNat_ofNat']
    omega
  have hlo : UInt8.ofNat (msb.toNat * 256 + lsb.toNat) = lsb := by
    apply UInt8.toNat_inj.mp
    rw [UInt8.toNat_ofNat']
    omega
  unfold len_bytes
  rw [hhi, hlo]

/-- What a call that returns has read. -/
theorem packet_bytes_reading {bytes : List UInt8}
    (h : packet_bytes .START packet₀ bytes = some (packet, rest)) :
    ∃ r : PacketReading, bytes = r.bytes ++ rest ∧ r.Of packet₀ packet := by
  obtain ⟨pre, packet₁, CMD, tail, rfl, hstart, hcmd, h⟩ := packet_bytes_start bytes packet₀ h
  rcases tail with _ | ⟨msb, _ | ⟨lsb, tail⟩⟩
  · cases h
  · cases h
  · rw [packet_bytes_next rfl, packet_bytes_next rfl] at h
    obtain ⟨payload, tail, rfl, hlen⟩ := packet_bytes_split
      (n := max 1 (msb.toNat * 256 + lsb.toNat)) (fun data hdata => by
        obtain ⟨DATA, hstate, -⟩ := packet_state_payload
          { packet₁ with CMD := CMD, LEN := msb.toNat * 256 + lsb.toNat } hdata
        exact ⟨_, hstate⟩) h
    obtain ⟨DATA, hpayload, hbytes⟩ := packet_state_payload
      { packet₁ with CMD := CMD, LEN := msb.toNat * 256 + lsb.toNat } hlen
    rw [packet_bytes_state _ _ hpayload] at h
    rcases tail with _ | ⟨b1, _ | ⟨b2, _ | ⟨b3, _ | ⟨b4, tail⟩⟩⟩⟩
    · cases h
    · cases h
    · cases h
    · cases h
    · rw [packet_bytes_next rfl, packet_bytes_next rfl, packet_bytes_next rfl,
        packet_bytes_next rfl] at h
      obtain ⟨rfl, junk, rfl, hjunk⟩ := packet_bytes_end tail h
      refine ⟨⟨pre, CMD, msb.toNat * 256 + lsb.toNat, payload, word b4 b3 b2 b1, junk, hcmd, ?_,
        hlen, hjunk⟩, ?_, ⟨packet₁, hstart⟩, rfl, rfl, hbytes, rfl⟩
      · have hmsb := msb.toNat_lt
        have hlsb := lsb.toNat_lt
        omega
      · simp [PacketReading.bytes, PacketReading.body, len_bytes_eq, word_bytes_word]

end Reading

end Rpitos
