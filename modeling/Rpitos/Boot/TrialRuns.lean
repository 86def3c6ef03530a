import Rpitos.Boot.ConfirmedImage
import Rpitos.Boot.MetaPass

/-!
# Boot.TrialRuns

A trial over runs of the device: passes, resets at any point, updates that are not committed, and what
the app does in between, with the passes counted.

`trial_bounded`: as long as the slot is on trial it is the same slot, its counter has counted every
pass, and there have been fewer passes than `APP_SLOT_TRIAL_MAX_ATTEMPTS`. `unconfirmed_rolls_back`:
without a confirmation, and without a tolerance policy that rolls back, exactly the pass that makes
them full gives the slot up for the other one.
-/

namespace Rpitos

open Function StatusCode DfuState

namespace Device

/-- What the metadata sector says. -/
def record (D : Device) : WdtMeta := wdt_meta_decode (D.dfu.emmc EMMC_SECTOR_METADATA)

def is_pass : DeviceAction → Bool
  | .bootloader_init _ => true
  | _ => false

/-- A step with the passes counted. -/
def counted (s : Device × Nat) (a : DeviceAction) : Option (Device × Nat) :=
  (s.1.step a).map fun D => (D, s.2 + (is_pass a).toNat)

/-- In the passes the metadata is read and written without errors, and a read of the app that fails
does not say `E_OK`; the updates fit their slot and none of them is committed. -/
def uncommitted (D : Device) : DeviceAction → Prop
  | .bootloader_init io => io.meta_read = none ∧ io.meta_write = none
  | .confirm io | .configure _ _ io => io.meta_read ≠ some E_OK
  | .session (.packet p f) => D.dfu.fits (.packet p f)
  | .session (.commit _) => D.dfu.is_self_update = true ∨ ¬D.dfu.slot_ok
  | .read_back_error accepted _ => accepted = false
  | .corrupt _ => False
  | _ => True

/-- The app does not confirm its slot, and asks for no policy that rolls back. -/
def unconfirmed (D : Device) : DeviceAction → Prop
  | .confirm _ => False
  | .configure _ policy io =>
    io.meta_read ≠ some E_OK ∧ policy ≠ WATCHDOG_RESET_POLICY_ROLLBACK
  | a => D.uncommitted a

variable {D D' : Device} {a : DeviceAction}

/-- A session stays in its slot, and has not committed. -/
def Open (D : Device) : Prop :=
  ∀ retries, D.pc = .session retries → D.dfu.state ≠ DFU_STATE_DONE ∧ ∃ X₀, InSlot X₀ D.dfu

/-- How a step can change the record. -/
inductive RecordMove (D : Device) : DeviceAction → WdtMeta → Prop
  | kept {a : DeviceAction} (ha : is_pass a = false) : RecordMove D a D.record
  | pass {io : BootIo} : RecordMove D (.bootloader_init io) D.record.pass.sealed
  | confirm {io : BootIo} : RecordMove D (.confirm io) { D.record with
      app_slot_trial := 0, trial_boot_count := 0, wdt_reset_count := 0 }.sealed
  | configure {tolerance : Int32} {policy : UInt32} {io : BootIo} :
      RecordMove D (.configure tolerance policy io) { D.record with
        wdt_reset_tolerance := tolerance, wdt_reset_policy := policy }.sealed

theorem record_write (D : Device) (m : WdtMeta) {X : Dfu}
    (hX : X.emmc = (wdt_meta_write D.dfu.emmc m none).2.2) :
    ({ D with dfu := X } : Device).record = m.sealed := by
  show wdt_meta_decode (X.emmc EMMC_SECTOR_METADATA) = m.sealed
  rw [hX, wdt_meta_write_sector, wdt_meta_decode_sealed]

theorem record_congr (h : D'.dfu.emmc = D.dfu.emmc) : D'.record = D.record := by
  unfold record
  rw [h]

/-- A sector of a slot is not the one with the metadata. -/
theorem inSlot_ne_metadata {X₀ X : Dfu} (h : InSlot X₀ X) :
    EMMC_SECTOR_METADATA ∉ X.written := by
  intro hmem
  obtain ⟨hle, hlt⟩ := h.written _ hmem
  unfold Dfu.target at hle
  unfold Dfu.target slot_size at hlt
  have hM : EMMC_SECTOR_METADATA = EMMC_SECTOR_BOOTLOADER + 1024 := rfl
  have hA : EMMC_SECTOR_APP_A = EMMC_SECTOR_METADATA + 1024 := rfl
  have hB : EMMC_SECTOR_APP_B = EMMC_SECTOR_METADATA + 17408 := rfl
  have hsize : EMMC_SECTOR_SIZE_BOOTLOADER = 512 := rfl
  split at hle
  case isTrue hself =>
    simp only [if_pos hself] at hlt
    omega
  case isFalse hself =>
    simp only [if_neg hself] at hlt
    obtain hs | hs := Survives.slot_cases X₀.new_slot <;> omega

theorem confirm_record (D : Device) {io : BootIo} (hio : io.meta_read ≠ some E_OK) :
    RecordMove D (.confirm io) (D.confirm io).record := by
  have hemmc : (D.confirm io).dfu.emmc = (wdt_meta_confirm_slot D.dfu.emmc D.dfu.wdt_meta
      io.meta_read io.meta_write).2.2 := by
    unfold Device.confirm
    dsimp only
    split <;> rfl
  unfold wdt_meta_confirm_slot wdt_meta_read at hemmc
  cases hread : io.meta_read with
  | some e =>
    have he : e ≠ E_OK := fun h => hio (by rw [hread, h])
    rw [hread] at hemmc
    dsimp only at hemmc
    rw [if_pos he] at hemmc
    rw [record_congr hemmc]
    exact .kept rfl
  | none =>
    rw [hread] at hemmc
    cases hwrite : io.meta_write with
    | some e =>
      rw [hwrite] at hemmc
      have hkept : (D.confirm io).record = D.record := record_congr (hemmc.trans rfl)
      rw [hkept]
      exact .kept rfl
    | none =>
      rw [hwrite] at hemmc
      have hnew := D.record_write { D.record with
        app_slot_trial := 0, trial_boot_count := 0, wdt_reset_count := 0 } hemmc
      exact hnew ▸ .confirm

theorem configure_record (D : Device) {tolerance : Int32} {policy : UInt32} {io : BootIo}
    (hio : io.meta_read ≠ some E_OK) :
    RecordMove D (.configure tolerance policy io) (D.configure tolerance policy io).record := by
  have hemmc : (D.configure tolerance policy io).dfu.emmc = (watchdog_init D.dfu.emmc
      D.dfu.wdt_meta tolerance policy io.meta_read io.meta_write).2 := rfl
  unfold watchdog_init wdt_meta_read at hemmc
  cases hread : io.meta_read with
  | some e =>
    have he : e ≠ E_OK := fun h => hio (by rw [hread, h])
    rw [hread] at hemmc
    dsimp only at hemmc
    rw [if_neg he] at hemmc
    rw [record_congr hemmc]
    exact .kept rfl
  | none =>
    rw [hread] at hemmc
    cases hwrite : io.meta_write with
    | some e =>
      rw [hwrite] at hemmc
      have hkept : (D.configure tolerance policy io).record = D.record :=
        record_congr (hemmc.trans rfl)
      rw [hkept]
      exact .kept rfl
    | none =>
      rw [hwrite] at hemmc
      have hnew := D.record_write { D.record with
        wdt_reset_tolerance := tolerance, wdt_reset_policy := policy } hemmc
      exact hnew ▸ .configure

theorem step_not_done {X : Dfu} {act : DfuAction} (hne : D.dfu.state ≠ DFU_STATE_DONE)
    (hX : D.dfu.step act = some X) (hok : D.uncommitted (.session act)) :
    X.state ≠ DFU_STATE_DONE := by
  have hmove := Dfu.step_move hX
  cases hmove with
  | idle _ => exact hne
  | @data p f _ _ hst =>
    obtain ⟨crc, n, heq⟩ := D.dfu.accept_data_eq p f
    obtain ⟨_, _, _, _, _, _, hfill⟩ := D.dfu.fill_eq p f
    rw [heq, hfill]
    exact hne
  | commit _ hself hslot =>
    obtain h | h := hok
    · exact absurd (h.symm.trans hself) Bool.noConfusion
    · exact absurd hslot h
  | _ => exact DfuState.noConfusion

/-- What a step without a commit does to the record; and no session gets ready to be left. -/
theorem step_record (hD : D.Open) (hok : D.uncommitted a) (h : D.step a = some D') :
    RecordMove D a D'.record ∧ D'.Open := by
  cases step_move h with
  | @bootloader_init io _ =>
    obtain ⟨hread, hwrite⟩ := hok
    have hemmc := D.bootloader_init_emmc io
    rw [hread, hwrite] at hemmc
    have hrecord : (D.bootloader_init io).record = D.record.pass.sealed :=
      D.record_write (X := (D.bootloader_init io).dfu) _ hemmc
    exact ⟨hrecord ▸ .pass, fun _ hpc => nomatch hpc⟩
  | enter_dfu _ _ =>
    exact ⟨.kept rfl, fun _ _ => ⟨DfuState.noConfusion, _, .init D.dfu _ _,
      fun s hmem => by cases hmem⟩⟩
  | load_app _ _ => exact ⟨.kept rfl, fun _ hpc => nomatch hpc⟩
  | @session retries act X hpc hX =>
    obtain ⟨hne, X₀, hin⟩ := hD retries hpc
    have hfits : D.dfu.fits act := by
      cases act with
      | packet p f => exact hok
      | commit f => trivial
    have hin' := hin.step hfits hX
    have hdone : X.state ≠ DFU_STATE_DONE := step_not_done hne hX hok
    -- neither before nor after the step is the metadata among the sectors that the session changed
    have hsector : X.emmc EMMC_SECTOR_METADATA = D.dfu.emmc EMMC_SECTOR_METADATA :=
      ((hin'.session.kept hdone).2.2 _ (inSlot_ne_metadata hin')).trans
        ((hin.session.kept hne).2.2 _ (inSlot_ne_metadata hin)).symm
    have hkept : ({ D with dfu := X } : Device).record = D.record := by
      show wdt_meta_decode (X.emmc _) = wdt_meta_decode _
      rw [hsector]
    exact ⟨hkept ▸ .kept rfl, fun _ _ => ⟨hdone, X₀, hin'⟩⟩
  | accepted _ => cases hok
  | @refused retries _ hpc =>
    obtain ⟨hne, X₀, hin⟩ := hD retries hpc
    exact ⟨.kept rfl, fun _ _ => ⟨DfuState.noConfusion, X₀, hin.session.abort hne, hin.written⟩⟩
  | @session_done retries _ hpc hdone => exact ((hD retries hpc).1 hdone).elim
  | session_failed _ => exact ⟨.kept rfl, fun _ hpc => nomatch hpc⟩
  | @confirm sector io hpc =>
    refine ⟨D.confirm_record hok, fun n hn => ?_⟩
    have hpc' : (D.confirm io).pc = D.pc := by
      unfold Device.confirm
      dsimp only
      split <;> rfl
    cases (hpc'.symm.trans hn).symm.trans hpc
  | @configure sector tolerance policy io hpc =>
    exact ⟨D.configure_record hok, fun n hn => by cases hpc.symm.trans hn⟩
  | dfu_reboot _ => exact ⟨.kept rfl, fun _ hpc => nomatch hpc⟩
  | reset => exact ⟨.kept rfl, fun _ hpc => nomatch hpc⟩
  | corrupt _ => exact hok.elim

theorem counted_step {s s' : Device × Nat} (h : counted s a = some s') :
    s.1.step a = some s'.1 ∧ s'.2 = s.2 + (is_pass a).toNat := by
  obtain ⟨D', hD', rfl⟩ := Option.map_eq_some_iff.mp h
  exact ⟨hD', rfl⟩

/-! ## Still on trial -/

/-- After `n` passes of a trial that began with the record `m₀`. -/
structure OnTrial (m₀ m : WdtMeta) (n : Nat) : Prop where
  slot : m.active_app_slot = m₀.active_app_slot
  count : m.trial_boot_count.toNat = m₀.trial_boot_count.toNat + n
  bound : m₀.trial_boot_count.toNat + n < APP_SLOT_TRIAL_MAX_ATTEMPTS.toNat

section Pass

variable {m₀ m : WdtMeta} {n : Nat}

theorem sealed_trial (m : WdtMeta) : m.sealed.app_slot_trial = m.app_slot_trial := rfl

/-- A pass cannot begin a trial. -/
theorem pass_off_trial (h : m.app_slot_trial = 0) : m.pass.app_slot_trial = 0 := by
  have hcount : m.count_reset.app_slot_trial = 0 := by
    unfold WdtMeta.count_reset trial_resolution
    rw [if_neg (not_not.mpr h)]
    exact h
  unfold WdtMeta.pass
  cases m.count_reset.policy_action with
  | nothing => exact hcount
  | force_update => exact hcount
  | roll_back => rfl

/-- A pass that leaves the slot on trial has counted it, and it was not the last one. -/
theorem pass_on_trial (htrial : m.app_slot_trial ≠ 0) (h : m.pass.app_slot_trial ≠ 0) :
    ¬m.exhausted ∧ ¬m.policy_rolls_back ∧ m.pass.active_app_slot = m.active_app_slot ∧
      m.pass.trial_boot_count = m.trial_boot_count + 1 := by
  have hpolicy : ¬m.policy_rolls_back := by
    intro hroll
    unfold WdtMeta.pass at h
    rw [(policy_action_roll_back m).mpr hroll] at h
    exact h rfl
  have hpass := (trial_pass htrial).mpr fun hboth => hpolicy hboth.2
  have hlast : ¬m.exhausted := fun hexhausted => h (hpass.exhausted hexhausted).2
  obtain ⟨hslot, -, hcount⟩ := hpass.kept hlast hpolicy
  exact ⟨hlast, hpolicy, hslot, hcount⟩

/-- The magic and the CRC say nothing about the trial. -/
theorem OnTrial.sealed (h : OnTrial m₀ m n) : OnTrial m₀ m.sealed n :=
  ⟨h.slot, h.count, h.bound⟩

theorem OnTrial.count_succ (hm : OnTrial m₀ m n) :
    (m.trial_boot_count + 1).toNat = m₀.trial_boot_count.toNat + (n + 1) := by
  have hcount := hm.count
  have hbound := hm.bound
  have hmax : APP_SLOT_TRIAL_MAX_ATTEMPTS.toNat = 3 := rfl
  rw [UInt32.toNat_add]
  show (m.trial_boot_count.toNat + 1) % 2 ^ 32 = _
  omega

theorem OnTrial.pass (hm : OnTrial m₀ m n) (htrial : m.app_slot_trial ≠ 0)
    (h : m.pass.app_slot_trial ≠ 0) : OnTrial m₀ m.pass (n + 1) := by
  obtain ⟨hlast, -, hslot, hcount⟩ := pass_on_trial htrial h
  have hsucc := hm.count_succ
  have hlt : (m.trial_boot_count + 1).toNat < APP_SLOT_TRIAL_MAX_ATTEMPTS.toNat :=
    UInt32.lt_iff_toNat_lt.mp (UInt32.not_le.mp hlast)
  refine ⟨hslot.trans hm.slot, ?_, ?_⟩
  · rw [hcount, hsucc]
  · rw [← hsucc]
    exact hlt

end Pass

/-- The trial that a run began with is over, or goes on. -/
structure Trial (m₀ : WdtMeta) (s : Device × Nat) : Prop where
  opened : s.1.Open
  trial : s.1.record.app_slot_trial ≠ 0 → OnTrial m₀ s.1.record s.2

theorem Trial.step {m₀ : WdtMeta} {s s' : Device × Nat} (hs : Trial m₀ s)
    (hok : s.1.uncommitted a) (h : counted s a = some s') : Trial m₀ s' := by
  obtain ⟨hstep, hn⟩ := counted_step h
  obtain ⟨hrecord, hopen⟩ := step_record hs.opened hok hstep
  refine ⟨hopen, fun htrial => ?_⟩
  generalize s'.1.record = m at hrecord htrial ⊢
  rw [hn]
  cases hrecord with
  | kept hpass =>
    rw [hpass]
    exact hs.trial htrial
  | pass =>
    rw [sealed_trial] at htrial
    have hbefore : s.1.record.app_slot_trial ≠ 0 := fun hoff => htrial (pass_off_trial hoff)
    exact ((hs.trial hbefore).pass hbefore htrial).sealed
  | confirm =>
    rw [sealed_trial] at htrial
    exact absurd rfl htrial
  | configure =>
    rw [sealed_trial] at htrial
    obtain ⟨hslot, hcount, hbound⟩ := hs.trial htrial
    refine OnTrial.sealed ?_
    exact ⟨hslot, hcount, hbound⟩

end Device

/-- From a reset with a slot on trial: whatever passes, resets, updates that are not committed and
calls of the app follow, while a slot is on trial it is this slot, each pass has been counted, and
the attempts are not used up. So after `APP_SLOT_TRIAL_MAX_ATTEMPTS` passes no slot is on trial. -/
theorem trial_bounded (D₀ D : Device) (n : Nat) (hpc : D₀.pc = .reset)
    (hcount : D₀.record.trial_boot_count < APP_SLOT_TRIAL_MAX_ATTEMPTS)
    (hr : Reach Device.counted (fun s a => s.1.uncommitted a) (D₀, 0) (D, n)) :
    (D.record.app_slot_trial ≠ 0 →
      D.record.active_app_slot = D₀.record.active_app_slot ∧
      D.record.trial_boot_count.toNat = D₀.record.trial_boot_count.toNat + n ∧
      D₀.record.trial_boot_count.toNat + n < APP_SLOT_TRIAL_MAX_ATTEMPTS.toNat) ∧
    (APP_SLOT_TRIAL_MAX_ATTEMPTS.toNat ≤ n → D.record.app_slot_trial = 0) := by
  have hinv : Device.Trial D₀.record (D, n) := by
    refine hr.invariant ?_ fun s s' a hs hok h => hs.step hok h
    exact ⟨fun _ h => (nomatch hpc.symm.trans h),
      fun _ => ⟨rfl, rfl, UInt32.lt_iff_toNat_lt.mp hcount⟩⟩
  refine ⟨fun htrial => ?_, fun hn => ?_⟩
  · obtain ⟨hslot, hcount, hbound⟩ := hinv.trial htrial
    exact ⟨hslot, hcount, hbound⟩
  · by_contra htrial
    have hbound := (hinv.trial htrial).bound
    exact absurd (Nat.le_add_left n _) (Nat.not_le_of_lt (Nat.lt_of_lt_of_le hbound hn))

namespace Device

/-- A pass, and a reset of what it has booted. -/
def boot_and_reset (D : Device) : Device :=
  (D.bootloader_init .fine).reboot (D.bootloader_init .fine).dfu.boot_flags dfu_blank fun _ => 0

theorem reach_boot_and_reset {D₀ D : Device} {n : Nat}
    (hr : Reach counted (fun s a => s.1.unconfirmed a) (D₀, 0) (D, n)) (hpc : D.pc = .reset) :
    Reach counted (fun s a => s.1.unconfirmed a) (D₀, 0) (D.boot_and_reset, n + 1) := by
  have hstep : D.step (.bootloader_init .fine) = some (D.bootloader_init .fine) := if_pos hpc
  have hpass : counted (D, n) (.bootloader_init .fine) = some (D.bootloader_init .fine, n + 1) :=
    congrArg (Option.map _) hstep
  have hok : D.unconfirmed (.bootloader_init .fine) := ⟨rfl, rfl⟩
  exact (hr.step hok hpass).step
    (a := .reset (D.bootloader_init .fine).dfu.boot_flags dfu_blank fun _ => 0) trivial rfl

theorem uncommitted_of_unconfirmed {D : Device} {a : DeviceAction} (h : D.unconfirmed a) :
    D.uncommitted a := by
  cases a with
  | confirm io => exact h.elim
  | configure tolerance policy io => exact h.1
  | _ => exact h

/-- The trial of slot B, with three boots. -/
def three_boots : Device :=
  (device_with record_on_trial).boot_and_reset.boot_and_reset.boot_and_reset

theorem reach_three_boots : Reach counted (fun s a => s.1.unconfirmed a)
    (device_with record_on_trial, 0) (three_boots, 3) :=
  reach_boot_and_reset (reach_boot_and_reset (reach_boot_and_reset .start rfl) rfl) rfl

theorem record_device_with (m : WdtMeta) : (device_with m).record = m.sealed := device_with_meta m

end Device

theorem trial_bounded_three_boots : Device.three_boots.record.app_slot_trial = 0 :=
  (trial_bounded (device_with record_on_trial) Device.three_boots 3 rfl
    (by rw [Device.record_device_with]; decide)
    (Device.reach_three_boots.mono fun _ _ => Device.uncommitted_of_unconfirmed)).2 (by decide)

/-! ## Given up -/

namespace Device

/-- What has become of a trial that began with the record `m₀`, after `n` passes. -/
structure Judged (m₀ m : WdtMeta) (n : Nat) : Prop where
  policy : m.wdt_reset_policy ≠ WATCHDOG_RESET_POLICY_ROLLBACK
  waits : m₀.trial_boot_count.toNat + n < APP_SLOT_TRIAL_MAX_ATTEMPTS.toNat →
    m.app_slot_trial ≠ 0 ∧ OnTrial m₀ m n
  given_up : APP_SLOT_TRIAL_MAX_ATTEMPTS.toNat ≤ m₀.trial_boot_count.toNat + n →
    m.app_slot_trial = 0 ∧ m.active_app_slot = APP_SLOT_OTHER m₀.active_app_slot

variable {D : Device} {a : DeviceAction} {m₀ m : WdtMeta} {n : Nat}

theorem pass_policy (m : WdtMeta) : m.pass.wdt_reset_policy = m.wdt_reset_policy := by
  obtain ⟨-, hpolicy, -⟩ := count_reset_policy m
  unfold WdtMeta.pass
  cases m.count_reset.policy_action with
  | nothing => exact hpolicy
  | force_update => exact hpolicy
  | roll_back => exact hpolicy

theorem Judged.sealed (h : Judged m₀ m n) : Judged m₀ m.sealed n :=
  ⟨h.policy, fun hlt => ⟨(h.waits hlt).1, (h.waits hlt).2.sealed⟩, h.given_up⟩

theorem Judged.pass (hm : Judged m₀ m n) : Judged m₀ m.pass (n + 1) := by
  have hpolicy : ¬m.policy_rolls_back := fun h => hm.policy h.2.2
  refine ⟨?_, fun hlt => ?_, fun hle => ?_⟩
  · rw [pass_policy]
    exact hm.policy
  · obtain ⟨htrial, hon⟩ := hm.waits (by omega)
    have hlast : ¬m.exhausted := by
      refine UInt32.not_le.mpr (UInt32.lt_iff_toNat_lt.mpr ?_)
      rw [hon.count_succ]
      exact hlt
    obtain ⟨-, hkept, -⟩ := ((trial_pass htrial).mpr fun h => hlast h.1).kept hlast hpolicy
    have htrial' : m.pass.app_slot_trial ≠ 0 := hkept ▸ htrial
    exact ⟨htrial', hon.pass htrial htrial'⟩
  · by_cases hbefore : m₀.trial_boot_count.toNat + n < APP_SLOT_TRIAL_MAX_ATTEMPTS.toNat
    · -- the last attempt
      obtain ⟨htrial, hon⟩ := hm.waits hbefore
      have hlast : m.exhausted := by
        refine UInt32.le_iff_toNat_le.mpr ?_
        rw [hon.count_succ]
        exact hle
      obtain ⟨hslot, htrial'⟩ :=
        ((trial_pass htrial).mpr fun h => hpolicy h.2).exhausted hlast
      exact ⟨htrial', by rw [hslot, hon.slot]⟩
    · obtain ⟨htrial, hslot⟩ := hm.given_up (Nat.le_of_not_lt hbefore)
      obtain ⟨hkept, -, -⟩ := pass_kept hpolicy
      have hcount : m.count_reset.active_app_slot = m.active_app_slot := by
        unfold WdtMeta.count_reset trial_resolution
        rw [if_neg (not_not.mpr htrial)]
      exact ⟨pass_off_trial htrial, by rw [hkept, hcount, hslot]⟩

theorem Judged.step {s s' : Device × Nat} (hopen : s.1.Open) (hs : Judged m₀ s.1.record s.2)
    (hok : s.1.unconfirmed a) (h : counted s a = some s') :
    s'.1.Open ∧ Judged m₀ s'.1.record s'.2 := by
  obtain ⟨hstep, hn⟩ := counted_step h
  obtain ⟨hrecord, hopen'⟩ := step_record hopen (uncommitted_of_unconfirmed hok) hstep
  refine ⟨hopen', ?_⟩
  generalize s'.1.record = m at hrecord ⊢
  rw [hn]
  cases hrecord with
  | kept hpass =>
    rw [hpass]
    exact hs
  | pass => exact hs.pass.sealed
  | confirm => exact hok.elim
  | configure =>
    refine Judged.sealed ⟨hok.2, fun hlt => ?_, hs.given_up⟩
    obtain ⟨htrial, hslot, hcount, -⟩ := hs.waits hlt
    exact ⟨htrial, hslot, hcount, hlt⟩

end Device

/-- From a reset with a slot on trial, and a tolerance policy that does not roll back: if the app never
confirms and no update is committed, the slot stays on trial until the attempts are used up, and from
that pass on the other slot is active and not on trial; whatever resets come, and at any point. -/
theorem unconfirmed_rolls_back (D₀ D : Device) (n : Nat) (hpc : D₀.pc = .reset)
    (htrial : D₀.record.app_slot_trial ≠ 0)
    (hcount : D₀.record.trial_boot_count < APP_SLOT_TRIAL_MAX_ATTEMPTS)
    (hpolicy : D₀.record.wdt_reset_policy ≠ WATCHDOG_RESET_POLICY_ROLLBACK)
    (hr : Reach Device.counted (fun s a => s.1.unconfirmed a) (D₀, 0) (D, n)) :
    (D₀.record.trial_boot_count.toNat + n < APP_SLOT_TRIAL_MAX_ATTEMPTS.toNat →
      D.record.app_slot_trial ≠ 0 ∧
      D.record.active_app_slot = D₀.record.active_app_slot) ∧
    (APP_SLOT_TRIAL_MAX_ATTEMPTS.toNat ≤ D₀.record.trial_boot_count.toNat + n →
      D.record.app_slot_trial = 0 ∧
      D.record.active_app_slot = APP_SLOT_OTHER D₀.record.active_app_slot) := by
  have hcount' := UInt32.lt_iff_toNat_lt.mp hcount
  have hinv : D.Open ∧ Device.Judged D₀.record D.record n := by
    refine hr.invariant (P := fun s => s.1.Open ∧ Device.Judged D₀.record s.1.record s.2) ?_
      fun s s' a hs hok h => hs.2.step hs.1 hok h
    exact ⟨fun _ h => (nomatch hpc.symm.trans h), hpolicy, fun _ => ⟨htrial, rfl, rfl, hcount'⟩,
      fun hle => absurd hle (Nat.not_le_of_lt hcount')⟩
  obtain ⟨-, hjudged⟩ := hinv
  exact ⟨fun hlt => ⟨(hjudged.waits hlt).1, (hjudged.waits hlt).2.slot⟩, hjudged.given_up⟩

theorem unconfirmed_rolls_back_three_boots :
    Device.three_boots.record.app_slot_trial = 0 ∧
      Device.three_boots.record.active_app_slot =
        APP_SLOT_OTHER (device_with record_on_trial).record.active_app_slot :=
  (unconfirmed_rolls_back (device_with record_on_trial) Device.three_boots 3 rfl
    (by rw [Device.record_device_with]; decide) (by rw [Device.record_device_with]; decide)
    (by rw [Device.record_device_with]; decide) Device.reach_three_boots).2
    (by rw [Device.record_device_with]; decide)

end Rpitos
