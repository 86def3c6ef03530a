import Rpitos.Boot.BootloaderRuns

/-!
# Boot.MetaPass

What a pass of `bootloader_init` makes of the persisted metadata. `bootloader_init_emmc`: the record
that the pass has read, behind the trial resolution, the reset counter and the tolerance policy.
`exhausted_trial`: a trial that is over rolls back, unless the policy rolls back once more in the same
pass. `meta_read_failure`: when the read fails, the initial shadow is written.
-/

namespace Rpitos

open Function StatusCode

/-- The shadow at the end of a pass that began with `m`. -/
def WdtMeta.pass (m : WdtMeta) : WdtMeta :=
  match m.count_reset.policy_action with
  | .nothing => m.count_reset
  | .force_update => { m.count_reset with wdt_reset_count := 0 }
  | .roll_back => { m.count_reset.roll_back with wdt_reset_count := 0 }

/-- The policy, behind the trial resolution. -/
theorem Device.policy_pass (D : Device) (m : WdtMeta) :
    (D.set_meta m.count_reset).policy.dfu.wdt_meta = m.pass ∧
      (D.set_meta m.count_reset).policy.dfu.emmc = D.dfu.emmc := by
  unfold policy WdtMeta.pass
  dsimp only [set_meta]
  cases m.count_reset.policy_action with
  | nothing => exact ⟨rfl, rfl⟩
  | force_update => exact ⟨rfl, rfl⟩
  | roll_back => exact ⟨rfl, rfl⟩

/-- A pass writes what it has made of the shadow behind `wdt_meta_read`. -/
theorem Device.bootloader_init_emmc (D : Device) (io : BootIo) : (D.bootloader_init io).dfu.emmc =
    (wdt_meta_write D.dfu.emmc (wdt_meta_read D.dfu.emmc D.dfu.wdt_meta io.meta_read).2.pass
      io.meta_write).2.2 := by
  obtain ⟨hmeta, hemmc⟩ := (D.read_state io).policy_pass (D.read_state io).dfu.wdt_meta
  have hwrite : ∀ D₁ : Device, D₁.dfu.wdt_meta = (D.read_state io).dfu.wdt_meta.pass →
      D₁.dfu.emmc = D.dfu.emmc → (D₁.write_meta io.meta_write).dfu.emmc =
        (wdt_meta_write D.dfu.emmc (D.read_state io).dfu.wdt_meta.pass io.meta_write).2.2 := by
    intro D₁ hm hE
    show (wdt_meta_write D₁.dfu.emmc D₁.dfu.wdt_meta io.meta_write).2.2 = _
    rw [hm, hE]
  unfold bootloader_init
  dsimp only
  split
  · exact hwrite _ hmeta hemmc
  · exact hwrite _ hmeta hemmc

/-! ## A trial that is over -/

/-- The tolerance policy rolls back in a pass that reads this record. -/
def WdtMeta.policy_rolls_back (m : WdtMeta) : Prop :=
  m.wdt_reset_tolerance ≥ 0 ∧ (m.wdt_reset_count + 1).toInt32 > m.wdt_reset_tolerance ∧
    m.wdt_reset_policy = WATCHDOG_RESET_POLICY_ROLLBACK

instance (m : WdtMeta) : Decidable m.policy_rolls_back :=
  inferInstanceAs (Decidable (_ ∧ _ ∧ _))

/-- With this pass, the trial has had its attempts. -/
def WdtMeta.exhausted (m : WdtMeta) : Prop := m.trial_boot_count + 1 ≥ APP_SLOT_TRIAL_MAX_ATTEMPTS

instance (m : WdtMeta) : Decidable m.exhausted := inferInstanceAs (Decidable (_ ≥ _))

/-- What a pass makes of a record on trial. -/
structure TrialPass (m m' : WdtMeta) : Prop where
  exhausted : m.exhausted →
    m'.active_app_slot = APP_SLOT_OTHER m.active_app_slot ∧ m'.app_slot_trial = 0
  kept : ¬m.exhausted → ¬m.policy_rolls_back → m'.active_app_slot = m.active_app_slot ∧
    m'.app_slot_trial = m.app_slot_trial ∧ m'.trial_boot_count = m.trial_boot_count + 1

section Trial

variable {m : WdtMeta}

theorem trial_resolution_exhausted (htrial : m.app_slot_trial ≠ 0) (h : m.exhausted) :
    trial_resolution m = (m.roll_back, true) := (if_pos htrial).trans (if_pos h)

theorem trial_resolution_kept (htrial : m.app_slot_trial ≠ 0) (h : ¬m.exhausted) :
    trial_resolution m = ({ m with trial_boot_count := m.trial_boot_count + 1 }, false) :=
  (if_pos htrial).trans (if_neg h)

/-- The trial resolution leaves the tolerance, the policy and the reset counter alone. -/
theorem count_reset_policy (m : WdtMeta) :
    m.count_reset.wdt_reset_tolerance = m.wdt_reset_tolerance ∧
      m.count_reset.wdt_reset_policy = m.wdt_reset_policy ∧
      m.count_reset.wdt_reset_count = m.wdt_reset_count + 1 := by
  unfold WdtMeta.count_reset trial_resolution
  split
  · dsimp only
    split
    · exact ⟨rfl, rfl, rfl⟩
    · exact ⟨rfl, rfl, rfl⟩
  · exact ⟨rfl, rfl, rfl⟩

theorem policy_action_roll_back (m : WdtMeta) :
    m.count_reset.policy_action = .roll_back ↔ m.policy_rolls_back := by
  obtain ⟨htolerance, hpolicy, hcount⟩ := count_reset_policy m
  unfold WdtMeta.policy_action WdtMeta.exceeded WdtMeta.policy_rolls_back
  rw [htolerance, hpolicy, hcount]
  have hdiffer : WATCHDOG_RESET_POLICY_ROLLBACK ≠ WATCHDOG_RESET_POLICY_FORCE_UPDATE := by decide
  split
  · rename_i hexceeded
    obtain ⟨htol, hgt⟩ := of_decide_eq_true hexceeded
    split
    · rename_i hforce
      exact iff_of_false PolicyAction.noConfusion fun h => hdiffer (h.2.2.symm.trans hforce)
    · split
      · rename_i hroll
        exact iff_of_true rfl ⟨htol, hgt, hroll⟩
      · rename_i hroll
        exact iff_of_false PolicyAction.noConfusion fun h => hroll h.2.2
  · rename_i hexceeded
    exact iff_of_false PolicyAction.noConfusion fun h =>
      hexceeded (decide_eq_true ⟨h.1, h.2.1⟩)

/-- The policy only touches the slot when it rolls back. -/
theorem pass_kept (h : ¬m.policy_rolls_back) :
    m.pass.active_app_slot = m.count_reset.active_app_slot ∧
      m.pass.app_slot_trial = m.count_reset.app_slot_trial ∧
      m.pass.trial_boot_count = m.count_reset.trial_boot_count := by
  have hkept := (policy_action_roll_back m).not.mpr h
  unfold WdtMeta.pass
  cases haction : m.count_reset.policy_action with
  | nothing => exact ⟨rfl, rfl, rfl⟩
  | force_update => exact ⟨rfl, rfl, rfl⟩
  | roll_back => exact (hkept haction).elim

theorem pass_rolls_back (h : m.policy_rolls_back) :
    m.pass.active_app_slot = APP_SLOT_OTHER m.count_reset.active_app_slot := by
  unfold WdtMeta.pass
  rw [(policy_action_roll_back m).mpr h]
  rfl

/-- Two roll-backs in a row do not end in the other slot. -/
theorem APP_SLOT_OTHER_twice (slot : UInt32) :
    APP_SLOT_OTHER (APP_SLOT_OTHER slot) ≠ APP_SLOT_OTHER slot := by
  unfold APP_SLOT_OTHER
  by_cases h : slot = APP_SLOT_B
  · rw [if_pos h]
    decide
  · rw [if_neg h]
    decide

theorem trial_pass (htrial : m.app_slot_trial ≠ 0) :
    TrialPass m m.pass ↔ ¬(m.exhausted ∧ m.policy_rolls_back) := by
  constructor
  · rintro hpass ⟨hexhausted, hpolicy⟩
    have hslot := (hpass.exhausted hexhausted).1
    rw [pass_rolls_back hpolicy] at hslot
    unfold WdtMeta.count_reset at hslot
    rw [trial_resolution_exhausted htrial hexhausted] at hslot
    exact APP_SLOT_OTHER_twice m.active_app_slot hslot
  · intro hboth
    refine ⟨fun hexhausted => ?_, fun hkept hpolicy => ?_⟩
    · obtain ⟨hslot, htrial', -⟩ := pass_kept fun hpolicy => hboth ⟨hexhausted, hpolicy⟩
      rw [hslot, htrial']
      unfold WdtMeta.count_reset
      rw [trial_resolution_exhausted htrial hexhausted]
      exact ⟨rfl, rfl⟩
    · obtain ⟨hslot, htrial', hcount⟩ := pass_kept hpolicy
      rw [hslot, htrial', hcount]
      unfold WdtMeta.count_reset
      rw [trial_resolution_kept htrial hkept]
      exact ⟨rfl, rfl, rfl⟩

end Trial

/-- With metadata reads and writes that succeed, a pass makes what it should of a record on trial,
exactly if the trial and the tolerance policy do not roll back both. -/
theorem exhausted_trial (D : Device) (lost : Nat → Bool) {m : WdtMeta}
    (hm : wdt_meta_decode (D.dfu.emmc EMMC_SECTOR_METADATA) = m) (htrial : m.app_slot_trial ≠ 0) :
    TrialPass m (wdt_meta_decode
        ((D.bootloader_init ⟨none, lost, none⟩).dfu.emmc EMMC_SECTOR_METADATA)) ↔
      ¬(m.exhausted ∧ m.policy_rolls_back) := by
  have hread : wdt_meta_read D.dfu.emmc D.dfu.wdt_meta none = (E_OK, m) := by rw [← hm]; rfl
  rw [D.bootloader_init_emmc, hread, wdt_meta_write_sector, wdt_meta_decode_sealed,
    ← trial_pass htrial]
  exact ⟨fun h => ⟨h.exhausted, h.kept⟩, fun h => ⟨h.exhausted, h.kept⟩⟩

/-- Slot B at the begin of its trial. -/
def record_on_trial : WdtMeta := { wdt_meta_defaults with
  active_app_slot := APP_SLOT_B
  app_slot_trial := 1 }

/-- A device whose metadata sector holds this record. -/
def device_with (m : WdtMeta) : Device := { device_blank with
  dfu := { device_blank.dfu with emmc := fun _ => clip m.sealed.to_sector } }

theorem device_with_meta (m : WdtMeta) :
    wdt_meta_decode ((device_with m).dfu.emmc EMMC_SECTOR_METADATA) = m.sealed :=
  wdt_meta_decode_sealed m

/-- One more boot of the trial. -/
theorem exhausted_trial_first_boot :
    TrialPass record_on_trial.sealed (wdt_meta_decode
      (((device_with record_on_trial).bootloader_init ⟨none, fun _ => false, none⟩).dfu.emmc
        EMMC_SECTOR_METADATA)) := by
  have htrial : record_on_trial.sealed.app_slot_trial ≠ 0 := by decide
  have hfirst : ¬record_on_trial.sealed.exhausted := by decide
  exact (exhausted_trial (device_with record_on_trial) (fun _ => false)
    (device_with_meta record_on_trial) htrial).mpr fun h => hfirst h.1

/-- On its last attempt, with a policy that rolls back at the next reset. -/
def record_exhausted : WdtMeta := { record_on_trial with
  wdt_reset_count := 3
  wdt_reset_tolerance := 3
  wdt_reset_policy := WATCHDOG_RESET_POLICY_ROLLBACK
  trial_boot_count := 2 }

/-- Both roll back: the slot that was on trial stays, and is confirmed. -/
theorem exhausted_trial_stays :
    wdt_meta_decode ((device_with record_exhausted).dfu.emmc EMMC_SECTOR_METADATA) =
      record_exhausted.sealed ∧ record_exhausted.sealed.exhausted ∧
    ¬TrialPass record_exhausted.sealed (wdt_meta_decode
      (((device_with record_exhausted).bootloader_init ⟨none, fun _ => false, none⟩).dfu.emmc
        EMMC_SECTOR_METADATA)) := by
  have hexhausted : record_exhausted.sealed.exhausted := by decide
  refine ⟨device_with_meta record_exhausted, hexhausted, fun hpass => ?_⟩
  have hslot := (hpass.exhausted hexhausted).1
  rw [Device.bootloader_init_emmc, wdt_meta_write_sector, wdt_meta_decode_sealed] at hslot
  dsimp only [wdt_meta_read] at hslot
  rw [device_with_meta] at hslot
  exact absurd hslot (by decide)

/-! ## A read that fails -/

/-- The value that `wdt_meta` has at the start of the bootloader. -/
def wdt_meta_initial : WdtMeta where
  magic := 0
  wdt_reset_count := 0
  wdt_reset_tolerance := WATCHDOG_RESET_TOLERANCE_INFINITE
  wdt_reset_policy := 0
  wdt_reset_reason := 0
  active_app_slot := APP_SLOT_A
  app_slot_trial := 0
  trial_boot_count := 0
  crc := 0

/-- `active_app_slot`, `app_slot_trial` and `trial_boot_count`. -/
def WdtMeta.slot_state (m : WdtMeta) : UInt32 × UInt32 × UInt32 :=
  (m.active_app_slot, m.app_slot_trial, m.trial_boot_count)

/-- A pass whose metadata read fails leaves the slot, the trial flag and the trial counter on the card
as they were, exactly if its write fails too or they were those of the initial shadow. -/
theorem meta_read_failure (D : Device) (e : StatusCode) (lost : Nat → Bool)
    (meta_write : Option StatusCode) :
    (WdtMeta.of_sector (((D.set_meta wdt_meta_initial).bootloader_init
        ⟨some e, lost, meta_write⟩).dfu.emmc EMMC_SECTOR_METADATA)).slot_state =
      (WdtMeta.of_sector (D.dfu.emmc EMMC_SECTOR_METADATA)).slot_state ↔
    meta_write ≠ none ∨
      (WdtMeta.of_sector (D.dfu.emmc EMMC_SECTOR_METADATA)).slot_state = (APP_SLOT_A, 0, 0) := by
  have hpass : wdt_meta_initial.pass.sealed.slot_state = (APP_SLOT_A, 0, 0) := rfl
  have hread : (wdt_meta_read D.dfu.emmc wdt_meta_initial (some e)).2 = wdt_meta_initial := rfl
  rw [Device.bootloader_init_emmc]
  show (WdtMeta.of_sector ((wdt_meta_write D.dfu.emmc (wdt_meta_read D.dfu.emmc wdt_meta_initial
    (some e)).2.pass meta_write).2.2 EMMC_SECTOR_METADATA)).slot_state = _ ↔ _
  rw [hread]
  cases meta_write with
  | none =>
    rw [wdt_meta_write_sector, WdtMeta.of_to_sector, hpass]
    exact ⟨fun h => .inr h.symm, fun h => (h.resolve_left fun h => h rfl).symm⟩
  | some e => exact iff_of_true rfl (.inl (Option.some_ne_none e))

/-- Slot B on trial is forgotten. -/
theorem meta_read_failure_on_trial :
    (WdtMeta.of_sector ((((device_with record_on_trial).set_meta wdt_meta_initial).bootloader_init
        ⟨some E_TIMED_OUT, fun _ => false, none⟩).dfu.emmc EMMC_SECTOR_METADATA)).slot_state ≠
      (WdtMeta.of_sector ((device_with record_on_trial).dfu.emmc EMMC_SECTOR_METADATA)).slot_state := by
  decide +kernel

end Rpitos
