import Mathlib.Tactic.IntervalCases
import Rpitos.Lib.Layout
import Rpitos.Telemetry.SyncRoster

/-!
# Telemetry.Packets

The payloads of `telemetry.h` as it documents them, one layout for each packet type and for each
sub-type of `PKT_BOOT_INFO`. Numbers of more than a byte have the high byte first.

`TelemetryPacket.decode_iff`: a type and a payload are read as a packet exactly when they are the
packet's own.
-/

namespace Rpitos

/-! ## Fields -/

/-- The high byte first. -/
def half_be (a b : UInt8) : UInt16 := (a.toUInt16 <<< 8) ||| b.toUInt16

theorem half_be_high (a b : UInt8) : (half_be a b >>> 8).toUInt8 = a := by
  unfold half_be
  apply UInt8.eq_of_toBitVec_eq
  ext i hi
  interval_cases i <;> simp

theorem half_be_low (a b : UInt8) : (half_be a b &&& 0xFF).toUInt8 = b := by
  unfold half_be
  apply UInt8.eq_of_toBitVec_eq
  ext i hi
  interval_cases i <;> simp

theorem half_be_of_bytes (v : UInt16) : half_be (v >>> 8).toUInt8 (v &&& 0xFF).toUInt8 = v := by
  unfold half_be
  apply UInt16.eq_of_toBitVec_eq
  ext i hi
  interval_cases i <;> simp [-UInt16.toUInt16_toUInt8]

namespace FieldCodec

def byte : FieldCodec UInt8 UInt8 := item

/-- A `uint16_t`. -/
def be16 : FieldCodec UInt16 UInt8 :=
  (byte.pair byte).via (fun v => ((v >>> 8).toUInt8, (v &&& 0xFF).toUInt8))
    (fun c => some (half_be c.1 c.2)) (fun v => congrArg some (half_be_of_bytes v))
    fun c v h => by
      obtain rfl := Option.some.inj h
      rw [half_be_high, half_be_low]

/-- A `uint32_t`. -/
def be32 : FieldCodec UInt32 UInt8 :=
  (byte.pair (byte.pair (byte.pair byte))).via
    (fun v => ((v >>> 24).toUInt8, (v >>> 16).toUInt8, (v >>> 8).toUInt8, v.toUInt8))
    (fun c => some (word c.2.2.2 c.2.2.1 c.2.1 c.1)) (fun v => congrArg some (word_of_bytes v))
    fun c v h => by
      obtain rfl := Option.some.inj h
      rw [word_byte0, word_byte1, word_byte2, word_byte3]

/-- An `int32_t`. -/
def be32_signed : FieldCodec Int32 UInt8 :=
  be32.via Int32.toUInt32 (fun c => some c.toInt32) (fun _ => rfl) fun c v h => by
    obtain rfl := Option.some.inj h
    rfl

/-- `kind` or `sync_kind`. -/
def sync_kind : FieldCodec TelemetrySyncKind UInt8 :=
  enum [.SYNC_KIND_MUTEX, .SYNC_KIND_SEMAPHORE, .SYNC_KIND_QUEUE, .SYNC_KIND_NONE]
    TelemetrySyncKind.toByte (fun a => by cases a <;> decide)
    fun a b h => by cases a <;> cases b <;> first | rfl | cases h

end FieldCodec

/-! ## Enumerations -/

inductive TelemetryBootStage where
  | BOOT_STAGE_BOOTSTRAP | BOOT_STAGE_BOOTLOADER | BOOT_STAGE_APP
  deriving DecidableEq, Repr

def TelemetryBootStage.toByte : TelemetryBootStage → UInt8
  | .BOOT_STAGE_BOOTSTRAP => 0
  | .BOOT_STAGE_BOOTLOADER => 1
  | .BOOT_STAGE_APP => 2

inductive TelemetryBootMilestoneId where
  | BOOT_MS_EMMC_INIT_DONE | BOOT_MS_EMMC_INIT_FAILED | BOOT_MS_HEADER_READ_FAILED
  | BOOT_MS_BAD_HEADER | BOOT_MS_BINARY_READ_FAILED | BOOT_MS_JUMPING_TO_BOOTLOADER
  | BOOT_MS_JTAG_INIT_DONE | BOOT_MS_BOOT_MODULE_INIT_DONE | BOOT_MS_DFU_MODULE_INIT_DONE
  | BOOT_MS_TRIAL_ROLLBACK | BOOT_MS_TOLERANCE_EXCEEDED_FORCE_DFU
  | BOOT_MS_TOLERANCE_EXCEEDED_ROLLBACK | BOOT_MS_ALL_RETRIES_EXHAUSTED | BOOT_MS_APP_LOAD_DONE
  | BOOT_MS_JUMPING_TO_APP | BOOT_MS_GIC_INIT_DONE | BOOT_MS_GENTIMER_INIT_DONE
  | BOOT_MS_CORE_RELEASED | BOOT_MS_SCHEDULER_INIT_DONE | BOOT_MS_SCHEDULER_START
  | BOOT_MS_SLOT_CONFIRMED
  deriving DecidableEq, Repr

namespace TelemetryBootMilestoneId

/-- In the order of their numbers, from 0. -/
def all : List TelemetryBootMilestoneId :=
  [BOOT_MS_EMMC_INIT_DONE, BOOT_MS_EMMC_INIT_FAILED, BOOT_MS_HEADER_READ_FAILED, BOOT_MS_BAD_HEADER,
    BOOT_MS_BINARY_READ_FAILED, BOOT_MS_JUMPING_TO_BOOTLOADER, BOOT_MS_JTAG_INIT_DONE,
    BOOT_MS_BOOT_MODULE_INIT_DONE, BOOT_MS_DFU_MODULE_INIT_DONE, BOOT_MS_TRIAL_ROLLBACK,
    BOOT_MS_TOLERANCE_EXCEEDED_FORCE_DFU, BOOT_MS_TOLERANCE_EXCEEDED_ROLLBACK,
    BOOT_MS_ALL_RETRIES_EXHAUSTED, BOOT_MS_APP_LOAD_DONE, BOOT_MS_JUMPING_TO_APP,
    BOOT_MS_GIC_INIT_DONE, BOOT_MS_GENTIMER_INIT_DONE, BOOT_MS_CORE_RELEASED,
    BOOT_MS_SCHEDULER_INIT_DONE, BOOT_MS_SCHEDULER_START, BOOT_MS_SLOT_CONFIRMED]

def toByte (id : TelemetryBootMilestoneId) : UInt8 := UInt8.ofNat (all.idxOf id)

theorem mem_all (id : TelemetryBootMilestoneId) : id ∈ all := by cases id <;> decide

theorem toByte_injective : Function.Injective toByte := by
  intro a b h
  have hlt : ∀ id, all.idxOf id < 2 ^ 8 := fun id =>
    (List.idxOf_lt_length_of_mem (mem_all id)).trans (by decide)
  have hidx := congrArg UInt8.toNat h
  rw [toByte, toByte, UInt8.toNat_ofNat', UInt8.toNat_ofNat', Nat.mod_eq_of_lt (hlt a),
    Nat.mod_eq_of_lt (hlt b)] at hidx
  exact (List.idxOf_inj (mem_all a)).mp hidx

end TelemetryBootMilestoneId

inductive TelemetryDfuEventPhase where
  | DFU_EVT_WAITING_TRIGGER | DFU_EVT_TRIGGER_MATCHED | DFU_EVT_START_RECEIVED
  | DFU_EVT_DATA_PROGRESS | DFU_EVT_CRC_CHECK_RESULT | DFU_EVT_READBACK_VALIDATE
  | DFU_EVT_MARKER_CHECK | DFU_EVT_COMMITTED | DFU_EVT_ABORTED
  deriving DecidableEq, Repr

def TelemetryDfuEventPhase.toByte : TelemetryDfuEventPhase → UInt8
  | .DFU_EVT_WAITING_TRIGGER => 0
  | .DFU_EVT_TRIGGER_MATCHED => 1
  | .DFU_EVT_START_RECEIVED => 2
  | .DFU_EVT_DATA_PROGRESS => 3
  | .DFU_EVT_CRC_CHECK_RESULT => 4
  | .DFU_EVT_READBACK_VALIDATE => 5
  | .DFU_EVT_MARKER_CHECK => 6
  | .DFU_EVT_COMMITTED => 7
  | .DFU_EVT_ABORTED => 8

namespace FieldCodec

def stage : FieldCodec TelemetryBootStage UInt8 :=
  enum [.BOOT_STAGE_BOOTSTRAP, .BOOT_STAGE_BOOTLOADER, .BOOT_STAGE_APP]
    TelemetryBootStage.toByte (fun a => by cases a <;> decide)
    fun a b h => by cases a <;> cases b <;> first | rfl | cases h

def milestone_id : FieldCodec TelemetryBootMilestoneId UInt8 :=
  enum TelemetryBootMilestoneId.all TelemetryBootMilestoneId.toByte
    TelemetryBootMilestoneId.mem_all TelemetryBootMilestoneId.toByte_injective

def phase : FieldCodec TelemetryDfuEventPhase UInt8 :=
  enum [.DFU_EVT_WAITING_TRIGGER, .DFU_EVT_TRIGGER_MATCHED, .DFU_EVT_START_RECEIVED,
      .DFU_EVT_DATA_PROGRESS, .DFU_EVT_CRC_CHECK_RESULT, .DFU_EVT_READBACK_VALIDATE,
      .DFU_EVT_MARKER_CHECK, .DFU_EVT_COMMITTED, .DFU_EVT_ABORTED]
    TelemetryDfuEventPhase.toByte (fun a => by cases a <;> decide)
    fun a b h => by cases a <;> cases b <;> first | rfl | cases h

end FieldCodec

/-! ## Packets -/

/-- A name on the wire has no NUL and at most `max` bytes. -/
abbrev PacketName (max : Nat) := { l : List UInt8 // l.length ≤ max ∧ 0 ∉ l }

/-- `TelemetryBootInfoSubtype` with the fields of each. -/
inductive TelemetryBootInfo where
  | BOOT_INFO_IMAGE_HEADER (stage : TelemetryBootStage)
    (version_num fw_length expected_crc actual_crc : UInt32) (crc_ok : UInt8)
  | BOOT_INFO_SLOT_STATE (active_app_slot app_slot_trial : UInt8)
    (trial_boot_count wdt_reset_count : UInt32) (wdt_reset_tolerance : Int32)
    (wdt_reset_policy wdt_reset_reason : UInt8)
  | BOOT_INFO_BOOT_FLAGS (reset_reason dfu_requested fw_crc_ok : UInt8)
  deriving DecidableEq

/-- `TelemetryPacketType` with the fields of each. -/
inductive TelemetryPacket where
  | PKT_HEARTBEAT (counter : UInt32)
  | PKT_TASK_CREATED (task_id : UInt16) (core_id priority : UInt8)
    (name : PacketName TELEMETRY_TASK_NAME_MAX)
  | PKT_TICK_STATE (core_id : UInt8) (task_id : UInt16) (state overflow_count : UInt8)
  | PKT_TASK_BLOCKED (task_id : UInt16) (core_id : UInt8) (sync_kind : TelemetrySyncKind)
    (sync_id : UInt16)
  | PKT_TASK_UNBLOCKED (task_id : UInt16) (core_id : UInt8)
  | PKT_BOOT_STAGE_ENTER (stage : TelemetryBootStage)
  | PKT_BOOT_MILESTONE (milestone_id : TelemetryBootMilestoneId) (stage : TelemetryBootStage)
    (counter : UInt32)
  | PKT_BOOT_INFO (info : TelemetryBootInfo)
  | PKT_DFU_EVENT (phase : TelemetryDfuEventPhase) (target : UInt8) (extra : UInt32)
  | PKT_SYNC_CREATED (kind : TelemetrySyncKind) (sync_id parent_sync_id : UInt16)
    (name : PacketName TELEMETRY_SYNC_NAME_MAX)
  | PKT_MUTEX_OWNER_CHANGED (sync_id : UInt16) (has_owner : UInt8) (owner_task_id : UInt16)
    (owner_core_id : UInt8)
  deriving DecidableEq

namespace WireLayout

open FieldCodec

def name (max : Nat) : WireLayout (PacketName max) UInt8 := items fun l => l.length ≤ max ∧ 0 ∉ l

def boot_info_image_header := after (fixed (0 : UInt8)) (after stage (after be32 (after be32
  (after be32 (after be32 (last byte))))))

def boot_info_slot_state := after (fixed (1 : UInt8)) (after byte (after byte (after be32
  (after be32 (after be32_signed (after byte (last byte)))))))

def boot_info_boot_flags := after (fixed (2 : UInt8)) (after byte (after byte (last byte)))

def heartbeat := last be32

def task_created := after be16 (after byte (after byte (name TELEMETRY_TASK_NAME_MAX)))

def tick_state := after byte (after be16 (after byte (last byte)))

def task_blocked := after be16 (after byte (after sync_kind (last be16)))

def task_unblocked := after be16 (last byte)

/-- Four bytes are reserved. -/
def boot_stage_enter := after stage (after (fixed (0 : UInt8)) (after (fixed (0 : UInt8))
  (after (fixed (0 : UInt8)) (last (fixed (0 : UInt8))))))

def boot_milestone := after milestone_id (after stage (last be32))

def dfu_event := after phase (after byte (last be32))

def sync_created := after sync_kind (after be16 (after be16 (name TELEMETRY_SYNC_NAME_MAX)))

def mutex_owner_changed := after be16 (after byte (after be16 (last byte)))

end WireLayout

namespace TelemetryBootInfo

/-- The bytes, the sub-type first. -/
def encode : TelemetryBootInfo → List UInt8
  | BOOT_INFO_IMAGE_HEADER stage version_num fw_length expected_crc actual_crc crc_ok =>
    WireLayout.boot_info_image_header.encode
      ((), stage, version_num, fw_length, expected_crc, actual_crc, crc_ok)
  | BOOT_INFO_SLOT_STATE active_app_slot app_slot_trial trial_boot_count wdt_reset_count
      wdt_reset_tolerance wdt_reset_policy wdt_reset_reason =>
    WireLayout.boot_info_slot_state.encode ((), active_app_slot, app_slot_trial, trial_boot_count,
      wdt_reset_count, wdt_reset_tolerance, wdt_reset_policy, wdt_reset_reason)
  | BOOT_INFO_BOOT_FLAGS reset_reason dfu_requested fw_crc_ok =>
    WireLayout.boot_info_boot_flags.encode ((), reset_reason, dfu_requested, fw_crc_ok)

def decode (payload : List UInt8) : Option TelemetryBootInfo :=
  match payload.head? with
  | some 0 => (WireLayout.boot_info_image_header.decode payload).map
    fun (_, stage, version_num, fw_length, expected_crc, actual_crc, crc_ok) =>
      BOOT_INFO_IMAGE_HEADER stage version_num fw_length expected_crc actual_crc crc_ok
  | some 1 => (WireLayout.boot_info_slot_state.decode payload).map
    fun (_, active_app_slot, app_slot_trial, trial_boot_count, wdt_reset_count,
        wdt_reset_tolerance, wdt_reset_policy, wdt_reset_reason) =>
      BOOT_INFO_SLOT_STATE active_app_slot app_slot_trial trial_boot_count wdt_reset_count
        wdt_reset_tolerance wdt_reset_policy wdt_reset_reason
  | some 2 => (WireLayout.boot_info_boot_flags.decode payload).map
    fun (_, reset_reason, dfu_requested, fw_crc_ok) =>
      BOOT_INFO_BOOT_FLAGS reset_reason dfu_requested fw_crc_ok
  | _ => none

theorem decode_encode (info : TelemetryBootInfo) : decode info.encode = some info := by
  unfold decode
  cases info with
  | BOOT_INFO_IMAGE_HEADER =>
    rw [encode, show (WireLayout.boot_info_image_header.encode _).head? = some 0 from rfl]
    dsimp only
    rw [WireLayout.roundtrip]
    rfl
  | BOOT_INFO_SLOT_STATE =>
    rw [encode, show (WireLayout.boot_info_slot_state.encode _).head? = some 1 from rfl]
    dsimp only
    rw [WireLayout.roundtrip]
    rfl
  | BOOT_INFO_BOOT_FLAGS =>
    rw [encode, show (WireLayout.boot_info_boot_flags.encode _).head? = some 2 from rfl]
    dsimp only
    rw [WireLayout.roundtrip]
    rfl

theorem decode_sound {payload : List UInt8} {info : TelemetryBootInfo}
    (h : decode payload = some info) : payload = info.encode := by
  unfold decode at h
  split at h
  case h_4 => cases h
  all_goals
    obtain ⟨v, hv, rfl⟩ := Option.map_eq_some_iff.mp h
    exact WireLayout.sound _ hv

end TelemetryBootInfo

namespace TelemetryPacket

/-- The number of the packet type. -/
def type : TelemetryPacket → UInt8
  | PKT_HEARTBEAT .. => 0
  | PKT_TASK_CREATED .. => 1
  | PKT_TICK_STATE .. => 2
  | PKT_TASK_BLOCKED .. => 3
  | PKT_TASK_UNBLOCKED .. => 4
  | PKT_BOOT_STAGE_ENTER .. => 5
  | PKT_BOOT_MILESTONE .. => 6
  | PKT_BOOT_INFO .. => 7
  | PKT_DFU_EVENT .. => 8
  | PKT_SYNC_CREATED .. => 9
  | PKT_MUTEX_OWNER_CHANGED .. => 10

def payload : TelemetryPacket → List UInt8
  | PKT_HEARTBEAT counter => WireLayout.heartbeat.encode counter
  | PKT_TASK_CREATED task_id core_id priority name =>
    WireLayout.task_created.encode (task_id, core_id, priority, name)
  | PKT_TICK_STATE core_id task_id state overflow_count =>
    WireLayout.tick_state.encode (core_id, task_id, state, overflow_count)
  | PKT_TASK_BLOCKED task_id core_id sync_kind sync_id =>
    WireLayout.task_blocked.encode (task_id, core_id, sync_kind, sync_id)
  | PKT_TASK_UNBLOCKED task_id core_id => WireLayout.task_unblocked.encode (task_id, core_id)
  | PKT_BOOT_STAGE_ENTER stage => WireLayout.boot_stage_enter.encode (stage, (), (), (), ())
  | PKT_BOOT_MILESTONE milestone_id stage counter =>
    WireLayout.boot_milestone.encode (milestone_id, stage, counter)
  | PKT_BOOT_INFO info => info.encode
  | PKT_DFU_EVENT phase target extra => WireLayout.dfu_event.encode (phase, target, extra)
  | PKT_SYNC_CREATED kind sync_id parent_sync_id name =>
    WireLayout.sync_created.encode (kind, sync_id, parent_sync_id, name)
  | PKT_MUTEX_OWNER_CHANGED sync_id has_owner owner_task_id owner_core_id =>
    WireLayout.mutex_owner_changed.encode (sync_id, has_owner, owner_task_id, owner_core_id)

def decode (type : UInt8) (payload : List UInt8) : Option TelemetryPacket :=
  match type with
  | 0 => (WireLayout.heartbeat.decode payload).map fun counter => PKT_HEARTBEAT counter
  | 1 => (WireLayout.task_created.decode payload).map
    fun (task_id, core_id, priority, name) => PKT_TASK_CREATED task_id core_id priority name
  | 2 => (WireLayout.tick_state.decode payload).map
    fun (core_id, task_id, state, overflow_count) =>
      PKT_TICK_STATE core_id task_id state overflow_count
  | 3 => (WireLayout.task_blocked.decode payload).map
    fun (task_id, core_id, sync_kind, sync_id) => PKT_TASK_BLOCKED task_id core_id sync_kind sync_id
  | 4 => (WireLayout.task_unblocked.decode payload).map
    fun (task_id, core_id) => PKT_TASK_UNBLOCKED task_id core_id
  | 5 => (WireLayout.boot_stage_enter.decode payload).map fun (stage, _) => PKT_BOOT_STAGE_ENTER stage
  | 6 => (WireLayout.boot_milestone.decode payload).map
    fun (milestone_id, stage, counter) => PKT_BOOT_MILESTONE milestone_id stage counter
  | 7 => (TelemetryBootInfo.decode payload).map fun info => PKT_BOOT_INFO info
  | 8 => (WireLayout.dfu_event.decode payload).map
    fun (phase, target, extra) => PKT_DFU_EVENT phase target extra
  | 9 => (WireLayout.sync_created.decode payload).map
    fun (kind, sync_id, parent_sync_id, name) => PKT_SYNC_CREATED kind sync_id parent_sync_id name
  | 10 => (WireLayout.mutex_owner_changed.decode payload).map
    fun (sync_id, has_owner, owner_task_id, owner_core_id) =>
      PKT_MUTEX_OWNER_CHANGED sync_id has_owner owner_task_id owner_core_id
  | _ => none

theorem decode_payload (p : TelemetryPacket) : decode p.type p.payload = some p := by
  unfold decode
  cases p with
  | PKT_BOOT_INFO info =>
    dsimp only [type, payload]
    rw [TelemetryBootInfo.decode_encode]
    rfl
  | _ =>
    dsimp only [type, payload]
    rw [WireLayout.roundtrip]
    rfl

theorem decode_sound {type : UInt8} {payload : List UInt8} {p : TelemetryPacket}
    (h : decode type payload = some p) : type = p.type ∧ payload = p.payload := by
  unfold decode at h
  split at h
  case h_8 =>
    obtain ⟨info, hinfo, rfl⟩ := Option.map_eq_some_iff.mp h
    exact ⟨rfl, TelemetryBootInfo.decode_sound hinfo⟩
  case h_12 => cases h
  all_goals
    obtain ⟨v, hv, rfl⟩ := Option.map_eq_some_iff.mp h
    exact ⟨rfl, WireLayout.sound _ hv⟩

/-- The decoder accepts what is written as documented and nothing else. -/
theorem decode_iff {type : UInt8} {payload : List UInt8} {p : TelemetryPacket} :
    decode type payload = some p ↔ type = p.type ∧ payload = p.payload := by
  constructor
  · exact decode_sound
  · rintro ⟨rfl, rfl⟩
    exact p.decode_payload

end TelemetryPacket

end Rpitos
