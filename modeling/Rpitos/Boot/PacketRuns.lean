import Rpitos.Boot.DfuRuns

/-!
# Boot.PacketRuns

The indices of `packet.DATA` that `dfu_packet_receive` stores to and that `dfu_receive` reads, over
every stream of bytes. `packet_indices`: they are inside the buffer while every length field that
arrives is at most its size. `payload_overrun`: no other length is refused.
-/

namespace Rpitos

open Function StatusCode DfuState

/-- The indices of `packet.DATA` that `dfu_receive` reads for a packet: the start packet, or the copy
loops and the CRC of `CMD_DATA`. -/
def Dfu.reads (X : Dfu) (packet : DFU_Packet) : List Nat :=
  if packet.CMD = CMD_START ∨ packet.CMD = CMD_START_SELF_UPDATE then
    if X.started ∨ packet.LEN ≠ START_PACKET_SIZE then [] else List.range START_PACKET_SIZE
  else if packet.CMD = CMD_DATA ∧ packet.LEN % 4 = 0 ∧ X.state = DFU_STATE_RECIEVE_DATA then
    (if X.current_sector_counter + packet.LEN ≥ SECTOR_SIZE then
      let diff := X.current_sector_counter + packet.LEN - SECTOR_SIZE
      let n := u32 (packet.LEN + (2 ^ 32 - diff))
      List.range n ++ (List.range diff).map fun i => u32 (n + i)
    else List.range packet.LEN) ++ List.range (X.to_hash packet.LEN)
  else []

namespace DfuReceive

/-- The index of `packet.DATA` that an event stores to. -/
def stores (R : DfuReceive) (ev : RxEvent) : Option Nat :=
  match R.pc with
  | .packet pc => store_index pc ev
  | _ => none

/-- The indices that are read when the event ends a packet. -/
def reads (R : DfuReceive) (ev : RxEvent) : List Nat :=
  match R.pc with
  | .packet pc =>
    match dfu_packet_receive pc R.packet ev with
    | .returns code packet => if code = E_OK then R.dfu.reads packet else []
    | .next _ _ => []
  | _ => []

/-- A length field that arrives is at most the size of the buffer. -/
def short_length (R : DfuReceive) (ev : RxEvent) : Bool :=
  match R.pc, ev with
  | .packet (.LENGTH_LSB msb), .byte lsb => msb.toNat * 256 + lsb.toNat ≤ MAX_DATA_SIZE_BYTES
  | _, _ => true

end DfuReceive

/-- The states behind the length field. -/
def PacketPc.has_length : PacketPc → Bool
  | .PAYLOAD => true
  | .PAYLOAD_REST _ => true
  | .CRC => true
  | .CRC_B2 _ => true
  | .CRC_B3 _ _ => true
  | .CRC_B4 _ _ _ => true
  | .END => true
  | _ => false

/-- What the parser knows of the packet: its length, and that the payload loop is inside it. -/
structure PacketOk (pc : PacketPc) (packet : DFU_Packet) : Prop where
  length : pc.has_length = true → packet.LEN ≤ MAX_DATA_SIZE_BYTES
  inside : ∀ r, pc = .PAYLOAD_REST r → r < packet.LEN

section Packets

variable {pc pc' : PacketPc} {packet packet' : DFU_Packet} {ev : RxEvent}

theorem PacketOk.of_not_has_length (h : pc.has_length = false) : PacketOk pc packet where
  length h' := nomatch h.symm.trans h'
  inside r hr := by rw [hr] at h; cases h

theorem payload_next_ok (hlen : packet.LEN ≤ MAX_DATA_SIZE_BYTES) (i : Nat) (DATA : Sector) :
    PacketOk (payload_next packet.LEN i) { packet with DATA := DATA } := by
  refine ⟨fun _ => hlen, fun r hr => ?_⟩
  unfold payload_next at hr
  split at hr
  · rename_i hlt
    cases hr
    exact hlt
  · cases hr

theorem PacketOk.next (hok : PacketOk pc packet)
    (hshort : ∀ msb lsb, pc = .LENGTH_LSB msb → ev = .byte lsb →
      msb.toNat * 256 + lsb.toNat ≤ MAX_DATA_SIZE_BYTES)
    (h : dfu_packet_receive pc packet ev = .next pc' packet') : PacketOk pc' packet' := by
  cases ev with
  | silence =>
    simp only [dfu_packet_receive] at h
    split at h
    · cases h
    · cases h; exact hok
  | byte b =>
    simp only [dfu_packet_receive] at h
    cases pc with
    | START =>
      cases h
      split
      · exact .of_not_has_length rfl
      · exact .of_not_has_length rfl
    | CMD =>
      simp only [dfu_packet_byte] at h
      split at h <;> cases h <;> exact .of_not_has_length rfl
    | LENGTH => cases h; exact .of_not_has_length rfl
    | LENGTH_LSB msb =>
      cases h
      exact ⟨fun _ => hshort msb b rfl rfl, fun r hr => nomatch hr⟩
    | PAYLOAD => cases h; exact payload_next_ok (hok.length rfl) 0 _
    | PAYLOAD_REST r => cases h; exact payload_next_ok (hok.length rfl) r _
    | CRC => cases h; exact ⟨fun _ => hok.length rfl, fun r hr => nomatch hr⟩
    | CRC_B2 b1 => cases h; exact ⟨fun _ => hok.length rfl, fun r hr => nomatch hr⟩
    | CRC_B3 b1 b2 => cases h; exact ⟨fun _ => hok.length rfl, fun r hr => nomatch hr⟩
    | CRC_B4 b1 b2 b3 => cases h; exact ⟨fun _ => hok.length rfl, fun r hr => nomatch hr⟩
    | END =>
      simp only [dfu_packet_byte] at h
      split at h
      · cases h
      · cases h; exact hok
    | ERROR => cases h; exact .of_not_has_length rfl

/-- A packet that is complete has a length the buffer holds. -/
theorem PacketOk.complete (hok : PacketOk pc packet)
    (h : dfu_packet_receive pc packet ev = .returns E_OK packet') :
    packet' = packet ∧ packet.LEN ≤ MAX_DATA_SIZE_BYTES := by
  cases ev with
  | silence =>
    simp only [dfu_packet_receive] at h
    split at h <;> cases h
  | byte b =>
    simp only [dfu_packet_receive] at h
    cases pc with
    | END =>
      simp only [dfu_packet_byte] at h
      split at h
      · cases h; exact ⟨rfl, hok.length rfl⟩
      · cases h
    | CMD =>
      simp only [dfu_packet_byte] at h
      split at h <;> cases h
    | _ => cases h

theorem PacketOk.store_lt (hok : PacketOk pc packet) {i : Nat} (h : store_index pc ev = some i) :
    i < MAX_DATA_SIZE_BYTES := by
  unfold store_index at h
  split at h
  · cases h; decide
  · cases h; exact Nat.lt_of_lt_of_le (hok.inside _ rfl) (hok.length rfl)
  · cases h

end Packets

section Reads

variable {X : Dfu} {packet : DFU_Packet} {f : Option StatusCode}

/-- No packet hashes more than it has. -/
theorem Dfu.to_hash_le (X : Dfu) (LEN : Nat) : X.to_hash LEN ≤ LEN := by
  unfold Dfu.to_hash
  split
  · rename_i h
    have hle : u32 (X.bytes_hashed + LEN) ≤ X.bytes_hashed + LEN := Nat.mod_le _ _
    split
    · omega
    · exact Nat.zero_le _
  · exact Nat.le_refl _

/-- The copy loops of `CMD_DATA` and its CRC read only what the length field says. -/
theorem Dfu.reads_lt (hc : X.current_sector_counter < SECTOR_SIZE)
    (hlen : packet.LEN ≤ MAX_DATA_SIZE_BYTES) {i : Nat} (h : i ∈ X.reads packet) :
    i < MAX_DATA_SIZE_BYTES := by
  unfold Dfu.reads at h
  split at h
  · split at h
    · cases h
    · exact Nat.lt_trans (List.mem_range.mp h) (by decide)
  · split at h
    · have hhash := X.to_hash_le packet.LEN
      rcases List.mem_append.mp h with h | h
      · split at h
        · rename_i hfull
          dsimp only at h
          have hn : u32 (packet.LEN + (2 ^ 32 - (X.current_sector_counter + packet.LEN -
              SECTOR_SIZE))) = SECTOR_SIZE - X.current_sector_counter := by
            unfold u32
            unfold SECTOR_SIZE at *
            unfold MAX_DATA_SIZE_BYTES at hlen
            omega
          rw [hn] at h
          rcases List.mem_append.mp h with h | h
          · have h := List.mem_range.mp h
            omega
          · obtain ⟨j, hj, rfl⟩ := List.mem_map.mp h
            have hj := List.mem_range.mp hj
            refine Nat.lt_of_le_of_lt (Nat.mod_le _ _) ?_
            omega
        · exact Nat.lt_of_lt_of_le (List.mem_range.mp h) hlen
      · exact Nat.lt_of_lt_of_le (List.mem_range.mp h) (Nat.le_trans hhash hlen)
    · cases h

/-- A data packet leaves room in the sector buffer. -/
theorem Dfu.accept_data_counter (hc : X.current_sector_counter < SECTOR_SIZE)
    (hlen : packet.LEN ≤ MAX_DATA_SIZE_BYTES) :
    (X.accept_data packet f).current_sector_counter < SECTOR_SIZE := by
  obtain ⟨crc, n, heq⟩ := X.accept_data_eq packet f
  rw [heq]
  dsimp only
  by_cases hfull : SECTOR_SIZE ≤ X.current_sector_counter + packet.LEN
  · rw [Dfu.fill_full hc hlen hfull, Dfu.spill_counter]
    unfold SECTOR_SIZE at *
    unfold MAX_DATA_SIZE_BYTES at hlen
    omega
  · rw [Dfu.fill_part (by omega)]
    exact Nat.lt_of_not_le hfull

theorem Dfu.start_counter (base : Nat) (self : Bool) :
    (X.start packet base self f).current_sector_counter = X.current_sector_counter := by
  unfold Dfu.start
  split
  · rfl
  · split <;> rfl

theorem Dfu.finish_counter : (X.finish f).current_sector_counter = X.current_sector_counter := by
  unfold Dfu.finish
  split
  · rfl
  · unfold Dfu.flush
    split <;> rfl

theorem Dfu.commit_counter : (X.commit f).current_sector_counter = X.current_sector_counter := by
  unfold Dfu.commit
  split
  · rfl
  · split <;> rfl

theorem Dfu.handle_counter (hc : X.current_sector_counter < SECTOR_SIZE)
    (hlen : packet.LEN ≤ MAX_DATA_SIZE_BYTES) :
    (X.handle packet f).current_sector_counter < SECTOR_SIZE := by
  unfold Dfu.handle
  split
  · rw [Dfu.start_counter]; exact hc
  · split
    · rw [Dfu.start_counter]; exact hc
    · split
      · unfold Dfu.receive_data
        split
        · exact hc
        · split
          · exact Dfu.accept_data_counter hc hlen
          · exact hc
      · split
        · exact hc
        · split
          · rw [Dfu.finish_counter]; exact hc
          · exact hc

end Reads

namespace DfuReceive

/-- What bounds the indices. -/
structure Bounded (R : DfuReceive) : Prop where
  counter : R.dfu.current_sector_counter < SECTOR_SIZE
  packet : ∀ pc, R.pc = .packet pc → PacketOk pc R.packet

theorem after_packet_start {X : Dfu} {pc : PacketPc} (h : after_packet X = .packet pc) :
    pc = .START := by
  unfold after_packet at h
  split at h
  · cases h
  · split at h
    · cases h
    · split at h
      · cases h
      · cases h; rfl

theorem Bounded.feed {R : DfuReceive} {ev : RxEvent}
    {faults : Option StatusCode × Option StatusCode} (hR : R.Bounded) (hok : R.short_length ev) :
    (R.feed ev faults).Bounded := by
  have hcounter := hR.counter
  unfold DfuReceive.feed
  cases hpc : R.pc with
  | trigger shift_reg =>
    cases ev with
    | silence => exact hR
    | byte b =>
      dsimp only
      split
      · refine ⟨hcounter, fun pc h => ?_⟩
        cases h
        exact .of_not_has_length rfl
      · exact ⟨hcounter, fun pc h => nomatch h⟩
  | packet pc =>
    have hpacket := hR.packet pc hpc
    have hshort : ∀ msb lsb, pc = .LENGTH_LSB msb → ev = .byte lsb →
        msb.toNat * 256 + lsb.toNat ≤ MAX_DATA_SIZE_BYTES := by
      intro msb lsb hmsb hev
      subst hmsb hev
      unfold DfuReceive.short_length at hok
      rw [hpc] at hok
      exact of_decide_eq_true hok
    dsimp only
    cases hstep : dfu_packet_receive pc R.packet ev with
    | next pc' packet' =>
      refine ⟨hcounter, fun pc'' h => ?_⟩
      cases h
      exact hpacket.next hshort hstep
    | returns code packet' =>
      dsimp only
      split
      · rename_i hcode
        subst hcode
        obtain ⟨rfl, hlen⟩ := hpacket.complete hstep
        have hhandle : (R.dfu.handle R.packet faults.1).current_sector_counter < SECTOR_SIZE :=
          Dfu.handle_counter hcounter hlen
        refine ⟨?_, fun pc' h => ?_⟩
        · dsimp only
          split
          · rw [Dfu.commit_counter]; exact hhandle
          · exact hhandle
        · rw [after_packet_start h]
          exact .of_not_has_length rfl
      · exact ⟨hcounter, fun pc' h => nomatch h⟩
  | returned code => exact ⟨hcounter, fun pc h => nomatch hpc.symm.trans h⟩
  | resetting => exact ⟨hcounter, fun pc h => nomatch hpc.symm.trans h⟩

/-- `dfu_receive` as a transition system over what arrives. -/
def next (R : DfuReceive) (a : RxEvent × Option StatusCode × Option StatusCode) :
    Option DfuReceive := some (R.feed a.1 a.2)

end DfuReceive

/-- While every length field is at most the size of the buffer, no byte is stored or read outside
`packet.DATA`. -/
theorem packet_indices (X : Dfu) (img_expected_crc crc_ctx : UInt32) (packet : DFU_Packet)
    (R : DfuReceive) (hr : Reach DfuReceive.next (fun R a => R.short_length a.1)
      (DfuReceive.enter X img_expected_crc crc_ctx packet) R) (ev : RxEvent) :
    (∀ i, R.stores ev = some i → i < MAX_DATA_SIZE_BYTES) ∧
      ∀ i ∈ R.reads ev, i < MAX_DATA_SIZE_BYTES := by
  have hinv : R.Bounded := by
    refine hr.invariant ⟨(by decide : 0 < SECTOR_SIZE), fun pc h => (nomatch h)⟩ ?_
    intro s s' a hs hok h
    cases h
    exact hs.feed hok
  constructor
  · intro i hi
    unfold DfuReceive.stores at hi
    split at hi
    · rename_i pc hpc
      exact (hinv.packet pc hpc).store_lt hi
    · cases hi
  · intro i hi
    unfold DfuReceive.reads at hi
    split at hi
    · rename_i pc hpc
      split at hi
      · rename_i code packet' hret
        split at hi
        · rename_i hcode
          subst hcode
          obtain ⟨rfl, hlen⟩ := (hinv.packet pc hpc).complete hret
          exact Dfu.reads_lt hinv.counter hlen hi
        · cases hi
      · cases hi
    · cases hi

/-- Bytes from the UART, every write succeeding. -/
def DfuReceive.feed_bytes (R : DfuReceive) (bytes : List UInt8) : DfuReceive :=
  bytes.foldl (fun R b => R.feed (.byte b) (none, none)) R

/-- Up to the declared length, the payload loop stores one byte behind the other. -/
theorem payload_rest (bytes : List UInt8) : ∀ (R : DfuReceive) (r : Nat),
    R.pc = .packet (.PAYLOAD_REST r) → r + bytes.length < R.packet.LEN →
    (R.feed_bytes bytes).pc = .packet (.PAYLOAD_REST (r + bytes.length)) := by
  induction bytes with
  | nil => intro R r hpc _; exact hpc
  | cons b bytes ih =>
    intro R r hpc hlen
    rw [List.length_cons] at hlen ⊢
    have hfeed : R.feed (.byte b) (none, none) = { R with
        packet := { R.packet with DATA := update R.packet.DATA r b }
        pc := .packet (.PAYLOAD_REST (r + 1)) } := by
      unfold DfuReceive.feed
      rw [hpc]
      simp only [dfu_packet_receive, dfu_packet_byte, payload_next]
      rw [if_pos (by omega)]
    have hrest := ih (R.feed (.byte b) (none, none)) (r + 1) (by rw [hfeed])
      (by rw [hfeed]; show r + 1 + bytes.length < R.packet.LEN; omega)
    rw [show r + (bytes.length + 1) = r + 1 + bytes.length by omega]
    exact hrest

/-- No length is refused: behind a length field above the size of the buffer, the payload byte with
the number `MAX_DATA_SIZE_BYTES` is stored behind the buffer. -/
theorem payload_overrun (R : DfuReceive) (first : UInt8) (bytes : List UInt8) (b : UInt8)
    (hpc : R.pc = .packet .PAYLOAD) (hlen : MAX_DATA_SIZE_BYTES < R.packet.LEN)
    (hbytes : bytes.length + 1 = MAX_DATA_SIZE_BYTES) :
    (R.feed_bytes (first :: bytes)).stores (.byte b) = some MAX_DATA_SIZE_BYTES := by
  have hfeed : R.feed (.byte first) (none, none) = { R with
      packet := { R.packet with DATA := update R.packet.DATA 0 first }
      pc := .packet (.PAYLOAD_REST 1) } := by
    unfold DfuReceive.feed
    rw [hpc]
    simp only [dfu_packet_receive, dfu_packet_byte, payload_next]
    rw [if_pos (by unfold MAX_DATA_SIZE_BYTES at hlen; omega)]
  have hrest := payload_rest bytes (R.feed (.byte first) (none, none)) 1 (by rw [hfeed])
    (by rw [hfeed]; show 1 + bytes.length < R.packet.LEN; omega)
  rw [show 1 + bytes.length = MAX_DATA_SIZE_BYTES by omega] at hrest
  unfold DfuReceive.stores
  rw [show R.feed_bytes (first :: bytes) =
    (R.feed (.byte first) (none, none)).feed_bytes bytes from rfl, hrest]
  rfl

/-- The trigger key, and a data packet with the length 257. -/
theorem packet_overrun :
    ((DfuReceive.enter dfu_blank 0 0 (zero_packet 0 0)).feed_bytes
      ([0xDF, 0, 0xDF, 0, 0xAA, CMD_DATA, 1, 1] ++ 0 :: List.replicate 255 0)).stores (.byte 0) =
        some MAX_DATA_SIZE_BYTES := by
  unfold DfuReceive.feed_bytes
  rw [List.foldl_append]
  exact payload_overrun _ 0 (List.replicate 255 0) 0 (by decide +kernel) (by decide +kernel)
    (by rw [List.length_replicate]; rfl)

/-- The trigger key, and a data packet with the length 2, up to its first payload byte. -/
def short_stream : List (RxEvent × Option StatusCode × Option StatusCode) :=
  [0xDF, 0, 0xDF, 0, 0xAA, CMD_DATA, 0, 2, 7].map fun b => (.byte b, none, none)

theorem packet_indices_short :
    ∃ R, execute DfuReceive.next (fun R a => R.short_length a.1)
        (DfuReceive.enter dfu_blank 0 0 (zero_packet 0 0)) short_stream = some R ∧
      R.stores (.byte 8) = some 1 ∧ ∀ i, R.stores (.byte 8) = some i → i < MAX_DATA_SIZE_BYTES := by
  refine ⟨_, rfl, by decide +kernel, ?_⟩
  exact (packet_indices dfu_blank 0 0 (zero_packet 0 0) _
    (.of_exec short_stream .start rfl) (.byte 8)).1

end Rpitos
