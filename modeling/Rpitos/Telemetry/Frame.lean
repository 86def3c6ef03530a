import Rpitos.Boot.Emmc
import Rpitos.Lib.Codec

/-!
# Telemetry.Frame

`telemetry_frame.c`: the frames on the telemetry channel,
`[0xA5][TYPE][SEQ][LEN_MSB][LEN_LSB][PAYLOAD][CRC32 LE][0x5A]`, and a decoder for them.
`telemetry_decodable`: what any calls of `telemetry_send_framed` put on the wire decodes to those
calls with a valid type, and each type's frames are numbered from 0 modulo 256.
-/

namespace Rpitos

open Function (update update_self update_of_ne)

def TELEMETRY_MAGIC : UInt8 := 0xA5

def TELEMETRY_TRAILER : UInt8 := 0x5A

/-- `PKT_HEARTBEAT` is 0, `PKT_MUTEX_OWNER_CHANGED` is 10. -/
def NUM_TELEMETRY_PACKET_TYPES : Nat := 11

/-- The first five bytes of a frame. -/
def telemetry_header (type seq LEN_MSB LEN_LSB : UInt8) : List UInt8 :=
  [TELEMETRY_MAGIC, type, seq, LEN_MSB, LEN_LSB]

/-- The bytes that a call sends: the CRC goes over the header, then over the payload. -/
def framed_bytes (type seq : UInt8) (payload : Nat → UInt8) (len : UInt8) : List UInt8 :=
  let header := telemetry_header type seq 0 len
  let ctx := crc32_update crc32_start header
  let ctx := if 0 < len.toNat then crc32_update ctx (bytes_at payload 0 len.toNat) else ctx
  header ++ bytes_at payload 0 len.toNat ++ word_bytes (crc32_finish ctx) ++ [TELEMETRY_TRAILER]

/-- `seq_counters`, and what has been sent on `UART_CHANNEL_TELEMETRY`. -/
structure Telemetry where
  seq_counters : Nat → UInt8
  tx : List UInt8

/-- Before the first call. -/
def Telemetry.boot : Telemetry := ⟨fun _ => 0, []⟩

def telemetry_send_framed (T : Telemetry) (type : UInt32) (payload : Nat → UInt8) (len : UInt8) :
    Telemetry :=
  if type.toNat ≥ NUM_TELEMETRY_PACKET_TYPES then T
  else
    { seq_counters := update T.seq_counters type.toNat (T.seq_counters type.toNat + 1)
      tx := T.tx ++ framed_bytes type.toUInt8 (T.seq_counters type.toNat) payload len }

/-- The arguments of a call. -/
structure FramedCall where
  type : UInt32
  payload : Nat → UInt8
  len : UInt8

def FramedCall.send (T : Telemetry) (c : FramedCall) : Telemetry :=
  telemetry_send_framed T c.type c.payload c.len

/-- `type < NUM_TELEMETRY_PACKET_TYPES`. -/
def FramedCall.valid (c : FramedCall) : Bool := c.type.toNat < NUM_TELEMETRY_PACKET_TYPES

/-- A frame: what the documented layout carries. Two bytes of length bound the payload. -/
structure TelemetryFrame where
  type : UInt8
  seq : UInt8
  payload : List UInt8
  bound : payload.length < 2 ^ 16

namespace TelemetryFrame

/-- The documented layout. -/
def encode (f : TelemetryFrame) : List UInt8 :=
  let header := telemetry_header f.type f.seq (UInt8.ofNat (f.payload.length / 256))
    (UInt8.ofNat f.payload.length)
  header ++ f.payload ++ word_bytes (crc32 (header ++ f.payload)) ++ [TELEMETRY_TRAILER]

/-- A frame off the front: the length says where the CRC is, and the magic, the CRC and the trailer
must be right. -/
def decode : List UInt8 → Option (TelemetryFrame × List UInt8)
  | magic :: type :: seq :: msb :: lsb :: body =>
    let len := 256 * msb.toNat + lsb.toNat
    match body.drop len with
    | c₀ :: c₁ :: c₂ :: c₃ :: trailer :: rest =>
      if magic = TELEMETRY_MAGIC ∧ trailer = TELEMETRY_TRAILER ∧
          word c₀ c₁ c₂ c₃ = crc32 (telemetry_header type seq msb lsb ++ body.take len) then
        some (⟨type, seq, body.take len, by
          have hmsb := msb.toNat_lt
          have hlsb := lsb.toNat_lt
          have hle := List.length_take_le len body
          omega⟩, rest)
      else none
    | _ => none
  | _ => none

/-- The length bytes give the length back. -/
theorem length_bytes {n : Nat} (h : n < 2 ^ 16) :
    256 * (UInt8.ofNat (n / 256)).toNat + (UInt8.ofNat n).toNat = n := by
  rw [UInt8.toNat_ofNat', UInt8.toNat_ofNat']
  omega

theorem decode_encode (f : TelemetryFrame) (rest : List UInt8) :
    decode (f.encode ++ rest) = some (f, rest) := by
  obtain ⟨type, seq, payload, bound⟩ := f
  have hlen := length_bytes bound
  unfold encode telemetry_header
  simp only [List.cons_append, List.nil_append, List.append_assoc, word_bytes, decode, hlen,
    List.drop_left, List.take_left]
  rw [if_pos ⟨trivial, trivial, word_of_bytes _⟩]

theorem encode_ne_nil (f : TelemetryFrame) : f.encode ≠ [] := by
  intro h
  cases h

/-- The decoder reads frames only. -/
theorem decode_sound {bytes rest : List UInt8} {f : TelemetryFrame}
    (h : decode bytes = some (f, rest)) : bytes = f.encode ++ rest := by
  unfold decode at h
  split at h
  case h_2 => cases h
  case h_1 magic type seq msb lsb body =>
    dsimp only at h
    split at h
    case h_2 => cases h
    case h_1 c₀ c₁ c₂ c₃ trailer rest' hdrop =>
      split at h
      case isFalse => cases h
      case isTrue hok =>
        obtain ⟨rfl, rfl, hword⟩ := hok
        cases h
        have hlen : (body.take (256 * msb.toNat + lsb.toNat)).length = 256 * msb.toNat + lsb.toNat := by
          have hpos := congrArg List.length hdrop
          rw [List.length_drop, List.length_cons] at hpos
          rw [List.length_take]
          omega
        have hmsb : UInt8.ofNat ((256 * msb.toNat + lsb.toNat) / 256) = msb := by
          have hlt := lsb.toNat_lt
          rw [show (256 * msb.toNat + lsb.toNat) / 256 = msb.toNat by omega, UInt8.ofNat_toNat]
        have hlsb : UInt8.ofNat (256 * msb.toNat + lsb.toNat) = lsb := by
          have hlt := lsb.toNat_lt
          apply UInt8.toNat_inj.mp
          rw [UInt8.toNat_ofNat']
          omega
        unfold encode
        dsimp only
        rw [hlen, hmsb, hlsb, ← hword, word_bytes, word_byte0, word_byte1, word_byte2, word_byte3]
        unfold telemetry_header
        simp only [List.cons_append, List.nil_append, List.append_assoc, ← hdrop,
          List.take_append_drop]

end TelemetryFrame

/-- The frames as a self-delimiting code. -/
def frame_codec : Codec TelemetryFrame UInt8 where
  encode := TelemetryFrame.encode
  decode := TelemetryFrame.decode
  nonempty := TelemetryFrame.encode_ne_nil
  roundtrip := TelemetryFrame.decode_encode

theorem bytes_at_length (buf : Nat → UInt8) (off n : Nat) : (bytes_at buf off n).length = n := by
  unfold bytes_at
  rw [List.length_map, List.length_range]

/-- The frame of a call. -/
def FramedCall.frame (c : FramedCall) (seq : UInt8) : TelemetryFrame where
  type := c.type.toUInt8
  seq := seq
  payload := bytes_at c.payload 0 c.len.toNat
  bound := by
    have hlen := c.len.toNat_lt
    rw [bytes_at_length]
    omega

/-- The two updates of the CRC are one over the header and the payload. -/
theorem framed_bytes_eq (c : FramedCall) (seq : UInt8) :
    framed_bytes c.type.toUInt8 seq c.payload c.len = (c.frame seq).encode := by
  have hmsb : UInt8.ofNat (c.len.toNat / 256) = 0 := by
    have hlen := c.len.toNat_lt
    rw [show c.len.toNat / 256 = 0 by omega]
    rfl
  unfold framed_bytes TelemetryFrame.encode FramedCall.frame crc32
  dsimp only
  rw [bytes_at_length, hmsb, UInt8.ofNat_toNat, ← crc32_update_append]
  by_cases hlen : 0 < c.len.toNat
  · rw [if_pos hlen]
  · rw [if_neg hlen, Nat.eq_zero_of_not_pos hlen]
    rfl

/-- The calls one after the other, from boot. -/
def send_all (calls : List FramedCall) : Telemetry := calls.foldl FramedCall.send .boot

/-- The frames of one type, in order. -/
def of_type (frames : List TelemetryFrame) (type : Nat) : List TelemetryFrame :=
  frames.filter fun f => f.type.toNat = type

/-- `calls` have put `frames` on the wire. -/
structure Sent (calls : List FramedCall) (T : Telemetry) (frames : List TelemetryFrame) : Prop where
  tx : T.tx = frames.flatMap TelemetryFrame.encode
  calls : frames.map (fun f => (f.type.toNat, f.payload)) =
    (calls.filter FramedCall.valid).map fun c => (c.type.toNat, bytes_at c.payload 0 c.len.toNat)
  counters : ∀ type, T.seq_counters type = UInt8.ofNat (of_type frames type).length
  numbered : ∀ type k f, (of_type frames type)[k]? = some f → f.seq.toNat = k % 256

theorem Sent.boot : Sent [] .boot [] :=
  ⟨rfl, rfl, fun _ => rfl, fun _ _ _ h => nomatch h⟩

theorem FramedCall.send_invalid {c : FramedCall} (h : c.valid = false) (T : Telemetry) :
    c.send T = T :=
  if_pos (Nat.le_of_not_lt (of_decide_eq_false h))

theorem FramedCall.send_valid {c : FramedCall} (h : c.valid = true) (T : Telemetry) :
    c.send T =
      { seq_counters := update T.seq_counters c.type.toNat (T.seq_counters c.type.toNat + 1)
        tx := T.tx ++ (c.frame (T.seq_counters c.type.toNat)).encode } := by
  have hlt : c.type.toNat < NUM_TELEMETRY_PACKET_TYPES := of_decide_eq_true h
  rw [← framed_bytes_eq]
  exact if_neg (Nat.not_le_of_lt hlt)

/-- A valid type fits the frame's byte. -/
theorem FramedCall.frame_type {c : FramedCall} (h : c.valid = true) (seq : UInt8) :
    (c.frame seq).type.toNat = c.type.toNat := by
  have hlt : c.type.toNat < NUM_TELEMETRY_PACKET_TYPES := of_decide_eq_true h
  unfold NUM_TELEMETRY_PACKET_TYPES at hlt
  show c.type.toUInt8.toNat = c.type.toNat
  rw [UInt32.toNat_toUInt8]
  omega

theorem of_type_snoc (frames : List TelemetryFrame) (f : TelemetryFrame) (type : Nat) :
    of_type (frames ++ [f]) type =
      if f.type.toNat = type then of_type frames type ++ [f] else of_type frames type := by
  unfold of_type
  rw [List.filter_append, List.filter_singleton]
  by_cases h : f.type.toNat = type
  · rw [if_pos h, decide_eq_true h]
    rfl
  · rw [if_neg h, decide_eq_false h]
    exact List.append_nil _

section

variable {calls : List FramedCall} {T : Telemetry} {frames : List TelemetryFrame}

theorem Sent.send_invalid (h : Sent calls T frames) {c : FramedCall} (hc : c.valid = false) :
    Sent (calls ++ [c]) (c.send T) frames := by
  rw [FramedCall.send_invalid hc]
  refine ⟨h.tx, ?_, h.counters, h.numbered⟩
  rw [List.filter_append, List.filter_cons_of_neg (by simp [hc]), List.filter_nil, List.append_nil]
  exact h.calls

/-- The frame gets the counter's number, which is how many of its type there are. -/
theorem Sent.send_valid (h : Sent calls T frames) {c : FramedCall} (hc : c.valid = true) :
    Sent (calls ++ [c]) (c.send T) (frames ++ [c.frame (T.seq_counters c.type.toNat)]) := by
  rw [FramedCall.send_valid hc]
  refine ⟨?_, ?_, fun type => ?_, fun type k f hf => ?_⟩
  · rw [List.flatMap_append, ← h.tx, List.flatMap_singleton]
  · rw [List.map_append, h.calls, List.filter_append, List.map_append,
      List.filter_cons_of_pos hc, List.filter_nil, List.map_singleton, List.map_singleton,
      FramedCall.frame_type hc]
    rfl
  · rw [of_type_snoc, FramedCall.frame_type hc]
    by_cases htype : c.type.toNat = type
    · subst htype
      rw [if_pos rfl, List.length_append, List.length_singleton, UInt8.ofNat_add, ← h.counters]
      exact update_self ..
    · rw [if_neg htype]
      exact (update_of_ne (Ne.symm htype) ..).trans (h.counters type)
  · rw [of_type_snoc, FramedCall.frame_type hc] at hf
    by_cases htype : c.type.toNat = type
    · subst htype
      rw [if_pos rfl, List.getElem?_append] at hf
      split at hf
      case isTrue hk => exact h.numbered _ k f hf
      case isFalse hk =>
        -- the new frame is the last one
        obtain ⟨hlt, hnew⟩ := List.getElem?_eq_some_iff.mp hf
        rw [List.length_singleton] at hlt
        rw [List.getElem_singleton] at hnew
        subst hnew
        show (T.seq_counters c.type.toNat).toNat = k % 256
        rw [h.counters, UInt8.toNat_ofNat', show (of_type frames c.type.toNat).length = k by omega]
    · rw [if_neg htype] at hf
      exact h.numbered type k f hf

end

theorem send_all_sent (calls : List FramedCall) : ∃ frames, Sent calls (send_all calls) frames := by
  induction calls using List.reverseRecOn with
  | nil => exact ⟨[], Sent.boot⟩
  | append_singleton calls c ih =>
    obtain ⟨frames, h⟩ := ih
    rw [send_all, List.foldl_concat]
    cases hc : c.valid with
    | false => exact ⟨frames, h.send_invalid hc⟩
    | true => exact ⟨_, h.send_valid hc⟩

/-- The wire decodes to the calls with a valid type, in order and with their payloads, each behind
the magic byte and before the CRC of its header and payload; the `k`-th frame of a type has the
number `k % 256`; and a call with an invalid type changes nothing. -/
theorem telemetry_decodable (calls : List FramedCall) :
    (∃ frames, frame_codec.decode_stream (send_all calls).tx = some frames ∧
      (send_all calls).tx = frames.flatMap TelemetryFrame.encode ∧
      frames.map (fun f => (f.type.toNat, f.payload)) =
        (calls.filter FramedCall.valid).map
          (fun c => (c.type.toNat, bytes_at c.payload 0 c.len.toNat)) ∧
      ∀ type k f, (of_type frames type)[k]? = some f → f.seq.toNat = k % 256) ∧
    ∀ (T : Telemetry) (c : FramedCall), c.valid = false → c.send T = T := by
  obtain ⟨frames, h⟩ := send_all_sent calls
  refine ⟨⟨frames, ?_, h.tx, h.calls, h.numbered⟩, fun T c hc => FramedCall.send_invalid hc T⟩
  rw [h.tx]
  exact frame_codec.decode_stream_eq frames

end Rpitos
