import Mathlib.Data.List.GetD
import Mathlib.Data.List.TakeWhile
import Rpitos.Telemetry.Packets

/-!
# Telemetry.Reports

The report functions of `telemetry.c`, without their lock, and of `telemetry_boot.c`: the call of
`telemetry_send_framed` that each of them makes.

`reports_read`: what any reports put on the wire is read back by the documented layouts as their
arguments, in order. Of a core number the low byte goes out, of a name what is before its NUL, at
most 16 bytes.
-/

namespace Rpitos

open Function (update update_self update_of_ne)

def PKT_HEARTBEAT : UInt32 := 0
def PKT_BOOT_STAGE_ENTER : UInt32 := 5
def PKT_BOOT_MILESTONE : UInt32 := 6
def PKT_BOOT_INFO : UInt32 := 7
def PKT_DFU_EVENT : UInt32 := 8

/-- A call with an array that is written whole. -/
def bytes_call (type : UInt32) (payload : List UInt8) : FramedCall :=
  ⟨type, buffer_of payload, UInt8.ofNat payload.length⟩

/-- The `while` that puts a name behind the first `off` bytes of a payload, from `name_len` on. -/
def name_loop (off max : Nat) (name : Option (Nat → UInt8)) (payload : Nat → UInt8)
    (name_len : Nat) : (Nat → UInt8) × Nat :=
  match name with
  | none => (payload, name_len)
  | some chars =>
    if chars name_len ≠ 0 ∧ name_len < max then
      name_loop off max (some chars) (update payload (off + name_len) (chars name_len))
        (name_len + 1)
    else (payload, name_len)
termination_by max - name_len

namespace Reports

/-- `payload` is the local array. -/
def telemetry_report_task_created (task_id : UInt16) (core_id : UInt32) (priority : UInt8)
    (name : Option (Nat → UInt8)) (payload : Nat → UInt8) : FramedCall :=
  let payload := copy_bytes payload 0 (buffer_of [(task_id >>> 8).toUInt8,
    (task_id &&& 0xFF).toUInt8, core_id.toUInt8, priority]) 4
  let (payload, name_len) := name_loop 4 TELEMETRY_TASK_NAME_MAX name payload 0
  ⟨PKT_TASK_CREATED, payload, UInt8.ofNat (4 + name_len)⟩

def telemetry_report_task_blocked (task_id : UInt16) (core_id : UInt32)
    (sync_kind : TelemetrySyncKind) (sync_id : UInt16) : FramedCall :=
  bytes_call PKT_TASK_BLOCKED [(task_id >>> 8).toUInt8, (task_id &&& 0xFF).toUInt8,
    core_id.toUInt8, sync_kind.toByte, (sync_id >>> 8).toUInt8, (sync_id &&& 0xFF).toUInt8]

def telemetry_report_task_unblocked (task_id : UInt16) (core_id : UInt32) : FramedCall :=
  bytes_call PKT_TASK_UNBLOCKED
    [(task_id >>> 8).toUInt8, (task_id &&& 0xFF).toUInt8, core_id.toUInt8]

def telemetry_report_mutex_owner_changed (sync_id : UInt16) (has_owner : UInt8)
    (owner_task_id : UInt16) (owner_core_id : UInt32) : FramedCall :=
  bytes_call PKT_MUTEX_OWNER_CHANGED [(sync_id >>> 8).toUInt8, (sync_id &&& 0xFF).toUInt8,
    has_owner, (owner_task_id >>> 8).toUInt8, (owner_task_id &&& 0xFF).toUInt8,
    owner_core_id.toUInt8]

def telemetry_report_boot_stage_enter (stage : TelemetryBootStage) : FramedCall :=
  bytes_call PKT_BOOT_STAGE_ENTER [stage.toByte, 0, 0, 0, 0]

def telemetry_report_boot_milestone (id : TelemetryBootMilestoneId) (stage : TelemetryBootStage)
    (counter : UInt32) : FramedCall :=
  bytes_call PKT_BOOT_MILESTONE [id.toByte, stage.toByte, (counter >>> 24).toUInt8,
    (counter >>> 16).toUInt8, (counter >>> 8).toUInt8, counter.toUInt8]

def telemetry_report_boot_info_image_header (stage : TelemetryBootStage)
    (version_num fw_length expected_crc actual_crc : UInt32) (crc_ok : UInt8) : FramedCall :=
  bytes_call PKT_BOOT_INFO [0, stage.toByte,
    (version_num >>> 24).toUInt8, (version_num >>> 16).toUInt8, (version_num >>> 8).toUInt8,
    version_num.toUInt8,
    (fw_length >>> 24).toUInt8, (fw_length >>> 16).toUInt8, (fw_length >>> 8).toUInt8,
    fw_length.toUInt8,
    (expected_crc >>> 24).toUInt8, (expected_crc >>> 16).toUInt8, (expected_crc >>> 8).toUInt8,
    expected_crc.toUInt8,
    (actual_crc >>> 24).toUInt8, (actual_crc >>> 16).toUInt8, (actual_crc >>> 8).toUInt8,
    actual_crc.toUInt8, crc_ok]

def telemetry_report_boot_info_slot_state (active_app_slot app_slot_trial : UInt8)
    (trial_boot_count wdt_reset_count : UInt32) (wdt_reset_tolerance : Int32)
    (wdt_reset_policy wdt_reset_reason : UInt8) : FramedCall :=
  let tolerance := wdt_reset_tolerance.toUInt32
  bytes_call PKT_BOOT_INFO [1, active_app_slot, app_slot_trial,
    (trial_boot_count >>> 24).toUInt8, (trial_boot_count >>> 16).toUInt8,
    (trial_boot_count >>> 8).toUInt8, trial_boot_count.toUInt8,
    (wdt_reset_count >>> 24).toUInt8, (wdt_reset_count >>> 16).toUInt8,
    (wdt_reset_count >>> 8).toUInt8, wdt_reset_count.toUInt8,
    (tolerance >>> 24).toUInt8, (tolerance >>> 16).toUInt8, (tolerance >>> 8).toUInt8,
    tolerance.toUInt8, wdt_reset_policy, wdt_reset_reason]

def telemetry_report_boot_info_boot_flags (reset_reason dfu_requested fw_crc_ok : UInt8) :
    FramedCall :=
  bytes_call PKT_BOOT_INFO [2, reset_reason, dfu_requested, fw_crc_ok]

def telemetry_report_dfu_event (phase : TelemetryDfuEventPhase) (target : UInt8) (extra : UInt32) :
    FramedCall :=
  bytes_call PKT_DFU_EVENT [phase.toByte, target, (extra >>> 24).toUInt8, (extra >>> 16).toUInt8,
    (extra >>> 8).toUInt8, extra.toUInt8]

/-- What `telemetry_publisher_task` sends every 100th time. -/
def heartbeat (heartbeat_counter : UInt32) : FramedCall :=
  bytes_call PKT_HEARTBEAT [(heartbeat_counter >>> 24).toUInt8, (heartbeat_counter >>> 16).toUInt8,
    (heartbeat_counter >>> 8).toUInt8, heartbeat_counter.toUInt8]

end Reports

/-! ## Names -/

/-- The characters of a name from `n` on, before its NUL and before `max`. -/
def name_chars (max : Nat) (chars : Nat → UInt8) (n : Nat) : List UInt8 :=
  (bytes_at chars n (max - n)).takeWhile (· ≠ 0)

/-- `NULL` is no name. -/
def name_text (max : Nat) : Option (Nat → UInt8) → List UInt8
  | none => []
  | some chars => name_chars max chars 0

theorem bytes_at_succ (buf : Nat → UInt8) (off n : Nat) :
    bytes_at buf off (n + 1) = buf off :: bytes_at buf (off + 1) n := by
  unfold bytes_at
  rw [List.range_succ_eq_map, List.map_cons, List.map_map]
  exact congrArg (List.cons _) (List.map_congr_left fun i _ => by
    rw [Function.comp_apply, Nat.succ_eq_add_one, Nat.add_comm i 1, Nat.add_assoc])

theorem bytes_at_add (buf : Nat → UInt8) (off n m : Nat) :
    bytes_at buf off (n + m) = bytes_at buf off n ++ bytes_at buf (off + n) m := by
  unfold bytes_at
  rw [List.range_add, List.map_append, List.map_map]
  exact congrArg _ (List.map_congr_left fun i _ => by rw [Function.comp_apply, Nat.add_assoc])

theorem bytes_at_buffer_of (data : List UInt8) :
    bytes_at (buffer_of data) 0 data.length = data := by
  refine List.ext_getElem (bytes_at_length _ _ _) fun i hi hi' => ?_
  simp only [bytes_at, buffer_of, List.getElem_map, List.getElem_range, Nat.zero_add]
  exact List.getD_eq_getElem _ _ hi'

theorem name_chars_cons {max : Nat} {chars : Nat → UInt8} {n : Nat} (hne : chars n ≠ 0)
    (hlt : n < max) : name_chars max chars n = chars n :: name_chars max chars (n + 1) := by
  unfold name_chars
  rw [show max - n = max - (n + 1) + 1 by omega, bytes_at_succ,
    List.takeWhile_cons_of_pos (by simpa using hne)]

theorem name_chars_nil {max : Nat} {chars : Nat → UInt8} {n : Nat}
    (hend : ¬(chars n ≠ 0 ∧ n < max)) : name_chars max chars n = [] := by
  unfold name_chars
  by_cases hlt : n < max
  · have hzero : chars n = 0 := by
      by_contra hne
      exact hend ⟨hne, hlt⟩
    rw [show max - n = max - (n + 1) + 1 by omega, bytes_at_succ,
      List.takeWhile_cons_of_neg (by simpa using hzero)]
  · rw [Nat.sub_eq_zero_of_le (Nat.le_of_not_lt hlt)]
    rfl

/-- From `n` on the loop takes the rest of the name and leaves the bytes before it. -/
theorem name_loop_chars (off max : Nat) (chars payload : Nat → UInt8) (n : Nat) :
    (name_loop off max (some chars) payload n).2 = n + (name_chars max chars n).length ∧
      bytes_at (name_loop off max (some chars) payload n).1 (off + n)
        (name_chars max chars n).length = name_chars max chars n ∧
      ∀ k, k < off + n → (name_loop off max (some chars) payload n).1 k = payload k := by
  induction hm : max - n generalizing payload n with
  | zero =>
    have hend : ¬(chars n ≠ 0 ∧ n < max) := fun h => by omega
    rw [name_loop, if_neg hend, name_chars_nil hend]
    exact ⟨rfl, rfl, fun _ _ => rfl⟩
  | succ m ih =>
    rw [name_loop]
    by_cases hmore : chars n ≠ 0 ∧ n < max
    · obtain ⟨hlen, hbytes, hkeep⟩ := ih (update payload (off + n) (chars n)) (n + 1) (by omega)
      rw [if_pos hmore, name_chars_cons hmore.1 hmore.2, List.length_cons]
      refine ⟨by omega, ?_, fun k hk => ?_⟩
      · rw [bytes_at_succ, hkeep _ (by omega), update_self, Nat.add_assoc, hbytes]
      · rw [hkeep k (by omega), update_of_ne (by omega)]
    · rw [if_neg hmore, name_chars_nil hmore]
      exact ⟨rfl, rfl, fun _ _ => rfl⟩

/-- Behind the bytes that were there stands the name. -/
theorem name_loop_spec (off max : Nat) (name : Option (Nat → UInt8)) (payload : Nat → UInt8) :
    (name_loop off max name payload 0).2 = (name_text max name).length ∧
      bytes_at (name_loop off max name payload 0).1 0 (off + (name_text max name).length) =
        bytes_at payload 0 off ++ name_text max name := by
  cases name with
  | none =>
    rw [name_loop]
    exact ⟨rfl, (List.append_nil _).symm⟩
  | some chars =>
    obtain ⟨hlen, hbytes, hkeep⟩ := name_loop_chars off max chars payload 0
    rw [Nat.zero_add] at hlen
    refine ⟨hlen, ?_⟩
    rw [bytes_at_add, Nat.zero_add]
    refine congrArg₂ _ (bytes_at_congr fun k hk => ?_) hbytes
    rw [Nat.zero_add]
    exact hkeep k hk

theorem name_text_ok (max : Nat) (name : Option (Nat → UInt8)) :
    (name_text max name).length ≤ max ∧ 0 ∉ name_text max name := by
  cases name with
  | none => exact ⟨Nat.zero_le _, List.not_mem_nil⟩
  | some chars =>
    refine ⟨(List.takeWhile_prefix _).length_le.trans (bytes_at_length _ _ _).le, fun hmem => ?_⟩
    have hne := List.mem_takeWhile_imp hmem
    exact absurd hne (by decide)

theorem bytes_at_take_of {data : List UInt8} {max : Nat} (h : max ≤ data.length) :
    bytes_at (buffer_of data) 0 max = data.take max := by
  have hmax : bytes_at (buffer_of data) 0 max = (bytes_at (buffer_of data) 0 data.length).take max := by
    unfold bytes_at
    rw [← List.map_take, List.take_range, Nat.min_eq_left h]
  rw [hmax, bytes_at_buffer_of]

/-- The text of a string that is stored with its NUL. -/
theorem name_text_buffer_of {data : List UInt8} (h : 0 ∉ data) (max : Nat) :
    name_text max (some (buffer_of data)) = data.take max := by
  have hall : ∀ b ∈ data.take max, (b ≠ 0 : Bool) = true := fun b hb =>
    decide_eq_true fun hzero => h (hzero ▸ List.mem_of_mem_take hb)
  show (bytes_at (buffer_of data) 0 (max - 0)).takeWhile (· ≠ 0) = data.take max
  rw [Nat.sub_zero]
  by_cases hmax : max ≤ data.length
  · rw [bytes_at_take_of hmax, List.takeWhile_eq_self_iff.mpr hall]
  · have hzero : buffer_of data (0 + data.length) = 0 := by simp [buffer_of]
    rw [List.take_of_length_le (by omega)] at hall ⊢
    rw [show max = data.length + (max - data.length - 1 + 1) by omega, bytes_at_add,
      bytes_at_buffer_of, List.takeWhile_append_of_pos hall, bytes_at_succ, hzero,
      List.takeWhile_cons_of_neg (by decide), List.append_nil]

/-- A name as a packet has it. -/
def packet_name (max : Nat) (name : Option (Nat → UInt8)) : PacketName max :=
  ⟨name_text max name, name_text_ok max name⟩

/-- The loop of `telemetry_register_sync` is the one of `telemetry_report_task_created`, a byte
further on. -/
theorem copy_name_eq (name : Option (Nat → UInt8)) (payload : Nat → UInt8) (n : Nat) :
    copy_name name payload n = name_loop 5 TELEMETRY_SYNC_NAME_MAX name payload n := by
  fun_induction copy_name name payload n with
  | case1 payload n => rw [name_loop]
  | case2 payload n chars hmore ih => rw [name_loop, if_pos hmore, ih]
  | case3 payload n chars hend => rw [name_loop, if_neg hend]

/-! ## What is read back -/

/-- A report with its arguments. -/
inductive Report where
  | heartbeat (heartbeat_counter : UInt32)
  | task_created (task_id : UInt16) (core_id : UInt32) (priority : UInt8)
    (name : Option (Nat → UInt8)) (payload : Nat → UInt8)
  | tick_state (record : TickRecord) (overflow : UInt8)
  | task_blocked (task_id : UInt16) (core_id : UInt32) (sync_kind : TelemetrySyncKind)
    (sync_id : UInt16)
  | task_unblocked (task_id : UInt16) (core_id : UInt32)
  | boot_stage_enter (stage : TelemetryBootStage)
  | boot_milestone (id : TelemetryBootMilestoneId) (stage : TelemetryBootStage) (counter : UInt32)
  | boot_info_image_header (stage : TelemetryBootStage)
    (version_num fw_length expected_crc actual_crc : UInt32) (crc_ok : UInt8)
  | boot_info_slot_state (active_app_slot app_slot_trial : UInt8)
    (trial_boot_count wdt_reset_count : UInt32) (wdt_reset_tolerance : Int32)
    (wdt_reset_policy wdt_reset_reason : UInt8)
  | boot_info_boot_flags (reset_reason dfu_requested fw_crc_ok : UInt8)
  | dfu_event (phase : TelemetryDfuEventPhase) (target : UInt8) (extra : UInt32)
  | register_sync (X : SyncTelemetry) (args : RegisterCall)
  | mutex_owner_changed (sync_id : UInt16) (has_owner : UInt8) (owner_task_id : UInt16)
    (owner_core_id : UInt32)

namespace Report

/-- The call that the report makes. -/
def call : Report → FramedCall
  | heartbeat heartbeat_counter => Reports.heartbeat heartbeat_counter
  | task_created task_id core_id priority name payload =>
    Reports.telemetry_report_task_created task_id core_id priority name payload
  | tick_state record overflow => tick_state_call record overflow
  | task_blocked task_id core_id sync_kind sync_id =>
    Reports.telemetry_report_task_blocked task_id core_id sync_kind sync_id
  | task_unblocked task_id core_id => Reports.telemetry_report_task_unblocked task_id core_id
  | boot_stage_enter stage => Reports.telemetry_report_boot_stage_enter stage
  | boot_milestone id stage counter => Reports.telemetry_report_boot_milestone id stage counter
  | boot_info_image_header stage version_num fw_length expected_crc actual_crc crc_ok =>
    Reports.telemetry_report_boot_info_image_header stage version_num fw_length expected_crc
      actual_crc crc_ok
  | boot_info_slot_state active_app_slot app_slot_trial trial_boot_count wdt_reset_count
      wdt_reset_tolerance wdt_reset_policy wdt_reset_reason =>
    Reports.telemetry_report_boot_info_slot_state active_app_slot app_slot_trial trial_boot_count
      wdt_reset_count wdt_reset_tolerance wdt_reset_policy wdt_reset_reason
  | boot_info_boot_flags reset_reason dfu_requested fw_crc_ok =>
    Reports.telemetry_report_boot_info_boot_flags reset_reason dfu_requested fw_crc_ok
  | dfu_event phase target extra => Reports.telemetry_report_dfu_event phase target extra
  | register_sync X args => (telemetry_register_sync X args).2.1
  | mutex_owner_changed sync_id has_owner owner_task_id owner_core_id =>
    Reports.telemetry_report_mutex_owner_changed sync_id has_owner owner_task_id owner_core_id

/-- The packet that says it. -/
def packet : Report → TelemetryPacket
  | heartbeat heartbeat_counter => .PKT_HEARTBEAT heartbeat_counter
  | task_created task_id core_id priority name _ =>
    .PKT_TASK_CREATED task_id core_id.toUInt8 priority (packet_name TELEMETRY_TASK_NAME_MAX name)
  | tick_state record overflow =>
    .PKT_TICK_STATE record.core_id record.task_id record.state overflow
  | task_blocked task_id core_id sync_kind sync_id =>
    .PKT_TASK_BLOCKED task_id core_id.toUInt8 sync_kind sync_id
  | task_unblocked task_id core_id => .PKT_TASK_UNBLOCKED task_id core_id.toUInt8
  | boot_stage_enter stage => .PKT_BOOT_STAGE_ENTER stage
  | boot_milestone id stage counter => .PKT_BOOT_MILESTONE id stage counter
  | boot_info_image_header stage version_num fw_length expected_crc actual_crc crc_ok =>
    .PKT_BOOT_INFO (.BOOT_INFO_IMAGE_HEADER stage version_num fw_length expected_crc actual_crc
      crc_ok)
  | boot_info_slot_state active_app_slot app_slot_trial trial_boot_count wdt_reset_count
      wdt_reset_tolerance wdt_reset_policy wdt_reset_reason =>
    .PKT_BOOT_INFO (.BOOT_INFO_SLOT_STATE active_app_slot app_slot_trial trial_boot_count
      wdt_reset_count wdt_reset_tolerance wdt_reset_policy wdt_reset_reason)
  | boot_info_boot_flags reset_reason dfu_requested fw_crc_ok =>
    .PKT_BOOT_INFO (.BOOT_INFO_BOOT_FLAGS reset_reason dfu_requested fw_crc_ok)
  | dfu_event phase target extra => .PKT_DFU_EVENT phase target extra
  | register_sync X args =>
    .PKT_SYNC_CREATED args.kind X.next_sync_id args.parent_sync_id
      (packet_name TELEMETRY_SYNC_NAME_MAX args.name)
  | mutex_owner_changed sync_id has_owner owner_task_id owner_core_id =>
    .PKT_MUTEX_OWNER_CHANGED sync_id has_owner owner_task_id owner_core_id.toUInt8

end Report

/-- A packet is what a call puts on the wire. -/
def FramedCall.Carries (c : FramedCall) (p : TelemetryPacket) : Prop :=
  c.valid = true ∧ c.type = p.type.toUInt32 ∧ bytes_at c.payload 0 c.len.toNat = p.payload

/-- A header, then a name. -/
theorem name_carries {type : UInt32} {p : TelemetryPacket} {n max : Nat} {header : List UInt8}
    {name : Option (Nat → UInt8)} {payload : Nat → UInt8}
    (hvalid : type.toNat < NUM_TELEMETRY_PACKET_TYPES)
    (hlen : n + max < 256) (htype : type = p.type.toUInt32)
    (hheader : bytes_at payload 0 n = header) (hp : p.payload = header ++ name_text max name) :
    FramedCall.Carries ⟨type, (name_loop n max name payload 0).1,
      UInt8.ofNat (n + (name_loop n max name payload 0).2)⟩ p := by
  obtain ⟨hcount, hbytes⟩ := name_loop_spec n max name payload
  have hmax := (name_text_ok max name).1
  refine ⟨decide_eq_true hvalid, htype, ?_⟩
  dsimp only
  rw [hcount, UInt8.toNat_ofNat', Nat.mod_eq_of_lt (by omega), hbytes, hheader, hp]

namespace Report

/-- Every report puts its packet on the wire. -/
theorem carries (r : Report) : r.call.Carries r.packet := by
  cases r with
  | task_created => exact name_carries (by decide) (by decide) rfl rfl rfl
  | register_sync X args =>
    have hcall : (register_sync X args).call =
        ⟨PKT_SYNC_CREATED,
          (copy_name args.name (sync_header args.payload args.kind X.next_sync_id
            args.parent_sync_id) 0).1,
          UInt8.ofNat (5 + (copy_name args.name (sync_header args.payload args.kind X.next_sync_id
            args.parent_sync_id) 0).2)⟩ := rfl
    rw [hcall, copy_name_eq]
    exact name_carries (by decide) (by decide) rfl rfl rfl
  | _ => exact ⟨rfl, rfl, rfl⟩

end Report

/-- A host that reads frames, then packets. -/
def read_packets (bytes : List UInt8) : Option (List TelemetryPacket) := do
  let frames ← frame_codec.decode_stream bytes
  frames.mapM fun f => TelemetryPacket.decode f.type f.payload

/-- The type and the payload of each packet. -/
def contents (packets : List TelemetryPacket) : List (Nat × List UInt8) :=
  packets.map fun p => (p.type.toNat, p.payload)

/-- Frames with the contents of packets are read as these packets. -/
theorem decode_frames {packets : List TelemetryPacket} : ∀ {frames : List TelemetryFrame},
    frames.map (fun f => (f.type.toNat, f.payload)) = contents packets →
      frames.mapM (fun f => TelemetryPacket.decode f.type f.payload) = some packets := by
  induction packets with
  | nil =>
    intro frames h
    rw [List.map_eq_nil_iff.mp h]
    rfl
  | cons p packets ih =>
    intro frames h
    cases frames with
    | nil => cases h
    | cons f frames =>
      obtain ⟨hf, htail⟩ := List.cons.inj h
      obtain ⟨htype, hpayload⟩ := Prod.mk.inj hf
      rw [List.mapM_cons, UInt8.toNat_inj.mp htype, hpayload, p.decode_payload, ih htail]
      rfl

section Calls

variable {calls : List FramedCall} {packets : List TelemetryPacket}

theorem calls_valid (h : List.Forall₂ FramedCall.Carries calls packets) :
    calls.filter FramedCall.valid = calls := by
  induction h with
  | nil => rfl
  | cons hp _ ih => rw [List.filter_cons_of_pos hp.1, ih]

theorem calls_contents (h : List.Forall₂ FramedCall.Carries calls packets) :
    calls.map (fun c => (c.type.toNat, bytes_at c.payload 0 c.len.toNat)) = contents packets := by
  induction h with
  | nil => rfl
  | cons hp _ ih =>
    obtain ⟨-, htype, hpayload⟩ := hp
    rw [List.map_cons, ih, htype, hpayload, UInt8.toNat_toUInt32]
    rfl

/-- Calls that carry packets put these packets on the wire. -/
theorem read_packets_calls (h : List.Forall₂ FramedCall.Carries calls packets) :
    read_packets (send_all calls).tx = some packets := by
  obtain ⟨frames, hsent⟩ := send_all_sent calls
  have hstream : frame_codec.decode_stream (send_all calls).tx = some frames := by
    rw [hsent.tx]
    exact frame_codec.decode_stream_eq frames
  have hcontents := hsent.calls
  rw [calls_valid h, calls_contents h] at hcontents
  unfold read_packets
  rw [hstream]
  exact decode_frames hcontents

end Calls

/-- Whatever reports are made, in whatever order: the documented layouts give back each of them with
its arguments, and read nothing else as a packet. -/
theorem reports_read (reports : List Report) :
    read_packets (send_all (reports.map Report.call)).tx = some (reports.map Report.packet) ∧
      ∀ type payload p, TelemetryPacket.decode type payload = some p →
        type = p.type ∧ payload = p.payload := by
  refine ⟨read_packets_calls ?_, fun type payload p => TelemetryPacket.decode_sound⟩
  induction reports with
  | nil => exact .nil
  | cons r reports ih => exact .cons r.carries ih

/-! ## The kernel's hooks -/

theorem bytes16_eq (v : Nat) :
    Locks.bytes16 v = [(UInt16.ofNat v >>> 8).toUInt8, (UInt16.ofNat v &&& 0xFF).toUInt8] := by
  have hhigh : UInt8.ofNat (v / 256) = (UInt16.ofNat v >>> 8).toUInt8 := by
    apply UInt8.toNat_inj.mp
    rw [UInt16.toNat_toUInt8, UInt16.toNat_shiftRight, UInt16.toNat_ofNat', UInt8.toNat_ofNat']
    show v / 256 % 2 ^ 8 = ((v % 2 ^ 16) >>> 8) % 2 ^ 8
    rw [Nat.shiftRight_eq_div_pow]
    omega
  have hlow : UInt8.ofNat v = (UInt16.ofNat v &&& 0xFF).toUInt8 := by
    apply UInt8.toNat_inj.mp
    rw [UInt16.toNat_toUInt8, UInt16.toNat_and, UInt16.toNat_ofNat', UInt8.toNat_ofNat']
    show v % 2 ^ 8 = (v % 2 ^ 16 &&& (2 ^ 8 - 1)) % 2 ^ 8
    rw [Nat.and_two_pow_sub_one_eq_mod]
    omega
  rw [Locks.bytes16, hhigh, hlow]

namespace Locks

variable {n : Nat}

/-- The locked send of a call. -/
def send_call (c : FramedCall) : Locked n Unit := do
  spinlock_acquire .telemetry_lock
  .modify fun X => { X with telemetry := c.send X.telemetry }
  spinlock_release .telemetry_lock

theorem byte_of_core (core_id : Nat) : UInt8.ofNat core_id = (UInt32.ofNat core_id).toUInt8 := by
  apply UInt8.toNat_inj.mp
  rw [UInt32.toNat_toUInt8, UInt32.toNat_ofNat', UInt8.toNat_ofNat']
  omega

/-- The hooks of the kernel's operations are reports. -/
theorem task_blocked_report (task_id : Nat) (core_id : CoreId) (sync_kind : TelemetrySyncKind)
    (sync_id : Nat) :
    (telemetry_report_task_blocked task_id core_id sync_kind sync_id : Locked n Unit) =
      send_call (Report.task_blocked (UInt16.ofNat task_id) (UInt32.ofNat core_id) sync_kind
        (UInt16.ofNat sync_id)).call := by
  rw [telemetry_report_task_blocked, bytes16_eq, bytes16_eq, byte_of_core]
  rfl

theorem task_unblocked_report (task_id : Nat) (core_id : CoreId) :
    (telemetry_report_task_unblocked task_id core_id : Locked n Unit) =
      send_call (Report.task_unblocked (UInt16.ofNat task_id) (UInt32.ofNat core_id)).call := by
  rw [telemetry_report_task_unblocked, bytes16_eq, byte_of_core]
  rfl

theorem mutex_owner_changed_report (sync_id : Nat) (has_owner : UInt8)
    (owner_task_id owner_core_id : Nat) :
    (telemetry_report_mutex_owner_changed sync_id has_owner owner_task_id owner_core_id :
        Locked n Unit) =
      send_call (Report.mutex_owner_changed (UInt16.ofNat sync_id) has_owner
        (UInt16.ofNat owner_task_id) (UInt32.ofNat owner_core_id)).call := by
  rw [telemetry_report_mutex_owner_changed, bytes16_eq, bytes16_eq, byte_of_core]
  rfl

/-- What stands behind the bytes of a payload does not go out. -/
theorem send_call_congr {c c' : FramedCall} (h : c.sent = c'.sent) :
    (send_call c : Locked n Unit) = send_call c' := by
  obtain ⟨htype, hbytes⟩ := Prod.mk.inj h
  have hlen : c.len = c'.len := by
    have hlength := congrArg List.length hbytes
    rw [bytes_at_length, bytes_at_length] at hlength
    exact UInt8.toNat_inj.mp hlength
  have hsend : ∀ T, c.send T = c'.send T := fun T => by
    unfold FramedCall.send telemetry_send_framed framed_bytes
    rw [htype, hbytes, hlen]
  unfold send_call
  simp only [hsend]

/-- A name without a NUL in it. -/
theorem task_created_report (task_id : Nat) (core_id : CoreId) (priority : Nat) {name : List UInt8}
    (hname : 0 ∉ name) (payload : Nat → UInt8) :
    (telemetry_report_task_created task_id core_id priority name : Locked n Unit) =
      send_call (Report.task_created (UInt16.ofNat task_id) (UInt32.ofNat core_id)
        (UInt8.ofNat priority) (some (buffer_of name)) payload).call := by
  obtain ⟨-, htype, hbytes⟩ := (Report.task_created (UInt16.ofNat task_id) (UInt32.ofNat core_id)
    (UInt8.ofNat priority) (some (buffer_of name)) payload).carries
  rw [telemetry_report_task_created, bytes16_eq, byte_of_core]
  refine send_call_congr (c := bytes_call PKT_TASK_CREATED _) (Prod.ext htype.symm ?_)
  refine Eq.trans ?_ hbytes.symm
  show bytes_at (buffer_of _) 0 (UInt8.ofNat (List.length _)).toNat =
    [_, _, _, _] ++ name_text TELEMETRY_TASK_NAME_MAX (some (buffer_of name))
  have hle := List.length_take_le TELEMETRY_TASK_NAME_MAX name
  have hmax : TELEMETRY_TASK_NAME_MAX = 16 := rfl
  rw [name_text_buffer_of hname, UInt8.toNat_ofNat', Nat.mod_eq_of_lt, bytes_at_buffer_of]
  · rfl
  · simp only [List.length_append, List.length_cons, List.length_nil]
    omega

end Locks

end Rpitos
