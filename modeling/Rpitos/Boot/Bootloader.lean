import Rpitos.Boot.DfuReceive

/-!
# Boot.Bootloader

The bootloader's `main.c` around `dfu_receive`, and the app as far as it touches the metadata and the
boot flags, as a transition system: passes of the bootloader, sessions packet by packet, resets, and
what the app does in between.

The fields behind `pc` record the run: the contents of the slots that were confirmed, the sector that
was accepted in this pass, whether the pass has had a session, and what has happened since the last
session that returned `E_OK`.
-/

namespace Rpitos

open Function StatusCode DfuState

def NUM_RETRIES : Nat := 10

/-- The errors of the card in a pass: of the metadata read, of the sectors that are read for the
validation, and of the metadata write. -/
structure BootIo where
  meta_read : Option StatusCode
  lost : Nat → Bool
  meta_write : Option StatusCode

/-- A card without errors. -/
def BootIo.fine : BootIo where
  meta_read := none
  lost := fun _ => false
  meta_write := none

/-- The reads of a card that loses some sectors. -/
def Emmc.reads_but (E : Emmc) (lost : Nat → Bool) : Nat → Option Sector :=
  fun sector => if lost sector then none else some (E sector)

/-- The app slot holds an image that is valid and fits the slot. -/
def Emmc.HoldsApp (E : Emmc) (sector : Nat) : Prop :=
  E.ValidApp sector ∧ (StartPacket.of_buffer (E sector)).fw_length.toNat ≤
    (EMMC_SECTOR_SIZE_APP - 1) * SECTOR_SIZE

instance (E : Emmc) (sector : Nat) : Decidable (E.HoldsApp sector) :=
  inferInstanceAs (Decidable (_ ∧ _))

/-- Roll back to the other slot. -/
def WdtMeta.roll_back (m : WdtMeta) : WdtMeta := { m with
  active_app_slot := APP_SLOT_OTHER m.active_app_slot
  app_slot_trial := 0
  trial_boot_count := 0 }

/-- The A/B trial resolution of `bootloader_init`, and whether it rolls back. -/
def trial_resolution (m : WdtMeta) : WdtMeta × Bool :=
  if m.app_slot_trial ≠ 0 then
    let m := { m with trial_boot_count := m.trial_boot_count + 1 }
    if m.trial_boot_count ≥ APP_SLOT_TRIAL_MAX_ATTEMPTS then (m.roll_back, true) else (m, false)
  else (m, false)

/-- The counter of resets is above its tolerance. -/
def WdtMeta.exceeded (m : WdtMeta) : Bool :=
  m.wdt_reset_tolerance ≥ 0 ∧ m.wdt_reset_count.toInt32 > m.wdt_reset_tolerance

/-- What the tolerance policy asks for. -/
inductive PolicyAction where
  | nothing
  | force_update
  | roll_back
  deriving DecidableEq, Repr

def WdtMeta.policy_action (m : WdtMeta) : PolicyAction :=
  if m.exceeded then
    if m.wdt_reset_policy = WATCHDOG_RESET_POLICY_FORCE_UPDATE then .force_update
    else if m.wdt_reset_policy = WATCHDOG_RESET_POLICY_ROLLBACK then .roll_back
    else .nothing
  else .nothing

/-- The metadata behind the trial resolution, with this reset counted. -/
def WdtMeta.count_reset (m : WdtMeta) : WdtMeta :=
  let m := (trial_resolution m).1
  { m with wdt_reset_count := m.wdt_reset_count + 1 }

/-- `revalidate`: a cold boot, or a rollback. -/
def revalidates (flags : BootFlags) (m : WdtMeta) : Bool :=
  flags.reset_reason = RESET_REASON_COLD ∨ (trial_resolution m).2 ∨
    m.count_reset.policy_action = .roll_back

/-- Where the device is. -/
inductive BootPc where
  /-- Before `bootloader_init`. -/
  | reset
  /-- Before `bootloader_execute`, with this many retries left; with none, in the recovery loop. -/
  | attempt (retries : Nat)
  /-- In `dfu_receive`. -/
  | session (retries : Nat)
  /-- Behind `boot_jump_to_app`, with the app from the slot at this sector. -/
  | app (sector : Nat)
  deriving DecidableEq, Repr

/-- Since the last session that returned `E_OK`. -/
structure Since where
  requested : Bool
  failed : Bool
  deriving DecidableEq, Repr

def Since.request (s : Since) : Since := { s with requested := true }

def Since.validation (s : Since) (ok : Bool) : Since := { s with failed := s.failed || !ok }

structure Device where
  dfu : Dfu
  /-- `current_sector` of `boot.c`. -/
  sector_buf : Sector
  pc : BootPc
  confirmed : List (Nat → Sector)
  validated : Option Nat
  dfu_in_pass : Bool
  since : Option Since

namespace Device

def active_sector (D : Device) : Nat := APP_SLOT_TO_SECTOR D.dfu.wdt_meta.active_app_slot

/-- The sectors of an app slot. -/
def slot (D : Device) (sector : Nat) : Nat → Sector := fun i => D.dfu.emmc (sector + i)

def set_meta (D : Device) (m : WdtMeta) : Device := { D with dfu := { D.dfu with wdt_meta := m } }

def set_flags (D : Device) (flags : BootFlags) : Device :=
  { D with dfu := { D.dfu with boot_flags := flags } }

/-- `wdt_meta_write`. -/
def write_meta (D : Device) (fault : Option StatusCode) : Device :=
  let r := wdt_meta_write D.dfu.emmc D.dfu.wdt_meta fault
  { D with dfu := { D.dfu with wdt_meta := r.2.1, emmc := r.2.2 } }

/-- The validation of the active slot. -/
def validate (D : Device) (lost : Nat → Bool) : Device :=
  let r := boot_validate_app (D.dfu.emmc.reads_but lost) D.sector_buf D.active_sector
  let D := { D with
    sector_buf := r.2
    validated := if r.1 = E_OK then some D.active_sector else none
    since := D.since.map fun s : Since => s.validation (r.1 = E_OK) }
  D.set_flags { D.dfu.boot_flags with fw_crc_ok := if r.1 = E_OK then 1 else 0 }

/-- The tolerance policy of `bootloader_init`. -/
def policy (D : Device) : Device :=
  let m := D.dfu.wdt_meta
  match m.policy_action with
  | .nothing => D
  | .force_update =>
    let D := { D with since := D.since.map Since.request }
    let D := D.set_meta { m with wdt_reset_count := 0 }
    D.set_flags { D.dfu.boot_flags with
      dfu_requested := DFU_REQUEST, reset_reason := RESET_REASON_SOFTWARE }
  | .roll_back => D.set_meta { m.roll_back with wdt_reset_count := 0 }

/-- `boot_flags_init` and `wdt_meta_read`, at the begin of a pass. -/
def read_state (D : Device) (io : BootIo) : Device :=
  let D := { D with validated := none, dfu_in_pass := false }
  let D := D.set_flags (boot_flags_init D.dfu.boot_flags)
  D.set_meta (wdt_meta_read D.dfu.emmc D.dfu.wdt_meta io.meta_read).2

/-- `bootloader_init` from `boot_flags_init` on. -/
def bootloader_init (D : Device) (io : BootIo) : Device :=
  let D := D.read_state io
  let revalidate := revalidates D.dfu.boot_flags D.dfu.wdt_meta
  let D := (D.set_meta D.dfu.wdt_meta.count_reset).policy
  let D := if revalidate then D.validate io.lost else D
  { D.write_meta io.meta_write with pc := .attempt NUM_RETRIES }

/-- The condition under which `bootloader_execute`, or the recovery loop, calls `dfu_receive`. -/
def enters_dfu (D : Device) (retries : Nat) : Bool :=
  retries = 0 ∨ D.dfu.boot_flags.dfu_requested = DFU_REQUEST ∨ D.dfu.boot_flags.fw_crc_ok = 0

/-- `boot_load_app` and `boot_jump_to_app`. -/
def load_app (D : Device) : Device := { D with pc := .app D.active_sector }

/-- `bootloader_execute` up to `dfu_receive`, or to the jump. -/
def bootloader_execute (D : Device) (retries : Nat) (img_expected_crc crc_ctx : UInt32) : Device :=
  if D.enters_dfu retries then
    { D with
      dfu := D.dfu.init img_expected_crc crc_ctx, pc := .session retries, dfu_in_pass := true }
  else D.load_app

/-- `dfu_receive` has returned `E_OK`. -/
def session_done (D : Device) (fault : Option StatusCode) : Device :=
  let D := { D with since := some ⟨false, false⟩ }
  let D := D.set_meta { D.dfu.wdt_meta with wdt_reset_count := 0 }
  (D.write_meta fault).load_app

/-- `wdt_meta_confirm_slot`, called by the app. -/
def confirm (D : Device) (io : BootIo) : Device :=
  let r := wdt_meta_confirm_slot D.dfu.emmc D.dfu.wdt_meta io.meta_read io.meta_write
  let D := { D with dfu := { D.dfu with wdt_meta := r.2.1, emmc := r.2.2 } }
  if r.1 = E_OK ∧ D.dfu.emmc.HoldsApp D.active_sector then
    { D with confirmed := D.confirmed ++ [D.slot D.active_sector] }
  else D

/-- `watchdog_init`, called by the app. -/
def configure (D : Device) (tolerance : Int32) (policy : UInt32) (io : BootIo) : Device :=
  let r := watchdog_init D.dfu.emmc D.dfu.wdt_meta tolerance policy io.meta_read io.meta_write
  { D with dfu := { D.dfu with wdt_meta := r.1, emmc := r.2 } }

/-- A reset: what is in RAM is `ram`, and the shared flags are `flags`. -/
def reboot (D : Device) (flags : BootFlags) (ram : Dfu) (buf : Sector) : Device :=
  { D with dfu := { ram with emmc := D.dfu.emmc, boot_flags := flags }, sector_buf := buf, pc := .reset }

/-- The flags that `dfu_reboot_task` leaves. -/
def trigger_flags (flags : BootFlags) : BootFlags := { flags with
  dfu_requested := DFU_REQUEST
  reset_reason := RESET_REASON_SOFTWARE
  magic := BOOT_FLAGS_MAGIC }

end Device

inductive DeviceAction where
  | bootloader_init (io : BootIo)
  | bootloader_execute (img_expected_crc crc_ctx : UInt32)
  | session (a : DfuAction)
  /-- A read fails while the new slot is read back: what the buffers hold decides. -/
  | read_back_error (accepted : Bool) (fault : Option StatusCode)
  /-- `dfu_receive` returns `E_OK`. -/
  | session_done (fault : Option StatusCode)
  /-- `dfu_receive` returns an error, at the end of an abort or in a time-out. -/
  | session_failed
  | confirm (io : BootIo)
  | configure (tolerance : Int32) (policy : UInt32) (io : BootIo)
  /-- The DFU trigger in the app. -/
  | dfu_reboot (ram : Dfu) (buf : Sector)
  | reset (flags : BootFlags) (ram : Dfu) (buf : Sector)
  /-- Between two passes, the metadata sector is corrupted. -/
  | corrupt (buf : Sector)

def Device.step (D : Device) : DeviceAction → Option Device
  | .bootloader_init io => if D.pc = .reset then some (D.bootloader_init io) else none
  | .bootloader_execute crc ctx =>
    match D.pc with
    | .attempt retries => some (D.bootloader_execute retries crc ctx)
    | _ => none
  | .session a =>
    match D.pc with
    | .session _ => (D.dfu.step a).map fun X => { D with dfu := X }
    | _ => none
  | .read_back_error accepted fault =>
    match D.pc with
    | .session _ =>
      if D.dfu.state = finishing ∧ D.dfu.is_self_update = false then
        some { D with dfu := if accepted then D.dfu.commit_slot fault else D.dfu.abort }
      else none
    | _ => none
  | .session_done fault =>
    match D.pc with
    | .session _ => if D.dfu.state = DFU_STATE_DONE then some (D.session_done fault) else none
    | _ => none
  | .session_failed =>
    match D.pc with
    | .session retries =>
      if D.dfu.open_session ∨ D.dfu.state = DFU_STATE_ABORT then
        some { D with pc := .attempt (retries - 1) }
      else none
    | _ => none
  | .confirm io =>
    match D.pc with
    | .app _ => some (D.confirm io)
    | _ => none
  | .configure tolerance policy io =>
    match D.pc with
    | .app _ => some (D.configure tolerance policy io)
    | _ => none
  | .dfu_reboot ram buf =>
    match D.pc with
    | .app _ => some { D.reboot (Device.trigger_flags D.dfu.boot_flags) ram buf with
        since := D.since.map Since.request }
    | _ => none
  | .reset flags ram buf => some (D.reboot flags ram buf)
  | .corrupt buf =>
    if D.pc = .reset then
      some { D with dfu := { D.dfu with emmc := update D.dfu.emmc EMMC_SECTOR_METADATA buf } }
    else none

end Rpitos
