import Rpitos.Boot.HostRuns
import Rpitos.Boot.LoadApp
import Rpitos.Boot.TrialRuns

/-!
# Boot.FlashedImage

From the image file on the host to the app that runs. `flashed_image_runs`: behind an update that was
acknowledged to its end, the slot holds the image over every run that commits nothing else; while it
is on trial nothing else is started; what is loaded is the image byte by byte; and a cold start of the
slot goes to it without another update.
-/

namespace Rpitos

open Function StatusCode DfuState

section Load

variable {E E' : Emmc} {sector : Nat} {img : List UInt8}

/-- What the sectors of the slot hold decides. -/
theorem Emmc.HoldsImage.congr (h : E.HoldsImage sector img) (hmax : img.length ≤ 65535)
    (hsame : ∀ i, i < EMMC_SECTOR_SIZE_APP → E' (sector + i) = E (sector + i)) :
    E'.HoldsImage sector img where
  header := by
    rw [show E' sector = E sector from hsame 0 (by decide)]
    exact h.header
  image i hi := by
    have hin : 1 + i / SECTOR_SIZE < EMMC_SECTOR_SIZE_APP := by
      unfold SECTOR_SIZE EMMC_SECTOR_SIZE_APP at *
      omega
    have himage := h.image i hi
    rw [Nat.add_assoc] at himage ⊢
    rw [hsame _ hin]
    exact himage

/-- `boot_load_app` brings the image to `APP_START_ADDR`. -/
theorem Emmc.HoldsImage.loaded (h : E.HoldsImage sector img) (hmax : img.length ≤ 65535)
    (buf : Sector) (ram : Nat → UInt8) :
    app_image (boot_load_app E buf ram sector ⟨none, none⟩).2.2 img.length = img := by
  have hlength : (UInt32.ofNat img.length).toNat = img.length :=
    UInt32.toNat_ofNat_of_lt' (by unfold UInt32.size; omega)
  have hram := boot_load_app_ram E buf ram sector
  rw [of_buffer_start_packet h.header, BYTES_TO_SECTORS_eq] at hram
  dsimp only at hram
  rw [if_pos (by rw [hlength]; unfold SECTOR_SIZE; omega)] at hram
  unfold sectors_of at hram
  rw [hlength] at hram
  refine List.ext_getElem (by simp [app_image, bytes_at]) fun i _ hi => ?_
  have hin : APP_START_ADDR ≤ APP_START_ADDR + i ∧ APP_START_ADDR + i <
      APP_START_ADDR + (img.length + SECTOR_SIZE - 1) / SECTOR_SIZE * SECTOR_SIZE := by
    unfold SECTOR_SIZE
    omega
  simp only [app_image, bytes_at, List.getElem_map, List.getElem_range]
  rw [hram, if_pos hin, Nat.add_sub_cancel_left, h.image i (by unfold SECTOR_SIZE; omega)]
  exact List.getD_eq_getElem _ _ hi

end Load

theorem Dfu.step_done {X : Dfu} (h : X.state = DFU_STATE_DONE) (a : DfuAction) : X.step a = none := by
  cases a with
  | packet p f =>
    refine if_neg fun hopen => ?_
    exact (Dfu.open_ne hopen).1 h
  | commit f =>
    refine if_neg fun hfinish => ?_
    cases h.symm.trans hfinish

namespace Device

variable {D D' : Device} {a : DeviceAction} {slot : UInt32} {img : List UInt8}

/-- Nothing is committed, and an update of an app begins only while the slot is the active one. -/
def spares (slot : UInt32) (D : Device) : DeviceAction → Prop
  | .session (.packet p f) => D.dfu.fits (.packet p f) ∧
      (p.CMD = CMD_START → D.dfu.started = false → p.LEN = START_PACKET_SIZE →
        D.record.active_app_slot = slot)
  | a => D.uncommitted a

theorem spares.uncommitted (h : D.spares slot a) : D.uncommitted a := by
  cases a with
  | session act =>
    cases act with
    | packet p f => exact h.1
    | commit f => exact h
  | _ => exact h

/-- `dfu_receive` is about to return `E_OK`, and the record says what the shadow says. -/
def Ended (D : Device) : Prop :=
  (∃ retries, D.pc = .session retries) ∧ D.dfu.state = DFU_STATE_DONE ∧ D.dfu.wdt_meta = D.record

/-- The slot holds the image. A slot on trial is this one, the shadow knows which slot is active, and
the app that runs is from that slot. -/
structure Flashed (slot : UInt32) (img : List UInt8) (D : Device) : Prop where
  holds : D.dfu.emmc.HoldsImage (APP_SLOT_TO_SECTOR slot) img
  active : D.record.app_slot_trial ≠ 0 → D.record.active_app_slot = slot
  shadow : D.pc ≠ .reset → D.dfu.wdt_meta.active_app_slot = D.record.active_app_slot
  running : ∀ sector, D.pc = .app sector → sector = APP_SLOT_TO_SECTOR D.record.active_app_slot
  target : ∀ retries, D.pc = .session retries → D.dfu.app → D.dfu.wdt_meta.active_app_slot = slot
  phase : D.Ended ∨ D.Open

/-! ## One step -/

theorem RecordMove.trial {m : WdtMeta} (h : RecordMove D a m)
    (hD : D.record.app_slot_trial ≠ 0 → D.record.active_app_slot = slot)
    (htrial : m.app_slot_trial ≠ 0) : m.active_app_slot = slot := by
  cases h with
  | kept _ => exact hD htrial
  | pass =>
    rw [sealed_trial] at htrial
    have hbefore : D.record.app_slot_trial ≠ 0 := fun hoff => htrial (pass_off_trial hoff)
    exact (pass_on_trial hbefore htrial).2.2.1.trans (hD hbefore)
  | confirm =>
    rw [sealed_trial] at htrial
    exact absurd rfl htrial
  | configure => exact hD htrial

theorem RecordMove.active {m : WdtMeta} (h : RecordMove D a m) (ha : is_pass a = false) :
    m.active_app_slot = D.record.active_app_slot := by
  cases h with
  | kept _ => rfl
  | pass => cases ha
  | confirm => rfl
  | configure => rfl

/-- The shadow behind a pass is what the pass has written. -/
theorem bootloader_init_meta (D : Device) (io : BootIo) : (D.bootloader_init io).dfu.wdt_meta =
    (wdt_meta_read D.dfu.emmc D.dfu.wdt_meta io.meta_read).2.pass.sealed := by
  obtain ⟨hmeta, -⟩ := (D.read_state io).policy_pass (D.read_state io).dfu.wdt_meta
  have hsealed : ∀ D₁ : Device, D₁.dfu.wdt_meta = (D.read_state io).dfu.wdt_meta.pass →
      (D₁.write_meta io.meta_write).dfu.wdt_meta =
        (D.read_state io).dfu.wdt_meta.pass.sealed := by
    intro D₁ hm
    show D₁.dfu.wdt_meta.sealed = _
    rw [hm]
  unfold bootloader_init
  dsimp only
  split
  · exact hsealed _ hmeta
  · exact hsealed _ hmeta

theorem confirm_meta (D : Device) {io : BootIo} (hio : io.meta_read ≠ some E_OK) :
    (D.confirm io).dfu.wdt_meta.active_app_slot = D.dfu.wdt_meta.active_app_slot ∨
      (D.confirm io).dfu.wdt_meta.active_app_slot = D.record.active_app_slot := by
  have hmeta : (D.confirm io).dfu.wdt_meta = (wdt_meta_confirm_slot D.dfu.emmc D.dfu.wdt_meta
      io.meta_read io.meta_write).2.1 := by
    unfold Device.confirm
    dsimp only
    split <;> rfl
  rw [hmeta]
  unfold wdt_meta_confirm_slot wdt_meta_read
  cases hread : io.meta_read with
  | some e =>
    have he : e ≠ E_OK := fun h => hio (by rw [hread, h])
    dsimp only
    rw [if_pos he]
    exact .inl rfl
  | none => exact .inr rfl

theorem configure_meta (D : Device) {tolerance : Int32} {policy : UInt32} {io : BootIo}
    (hio : io.meta_read ≠ some E_OK) :
    (D.configure tolerance policy io).dfu.wdt_meta.active_app_slot =
        D.dfu.wdt_meta.active_app_slot ∨
      (D.configure tolerance policy io).dfu.wdt_meta.active_app_slot =
        D.record.active_app_slot := by
  unfold Device.configure watchdog_init wdt_meta_read
  cases hread : io.meta_read with
  | some e =>
    have he : e ≠ E_OK := fun h => hio (by rw [hread, h])
    dsimp only
    rw [if_neg he]
    exact .inl rfl
  | none => exact .inr rfl

/-- A packet that commits nothing leaves the shadow alone. -/
theorem session_meta {retries : Nat} {act : DfuAction} {X : Dfu} (hD : D.Open)
    (hpc : D.pc = .session retries) (hok : D.uncommitted (.session act))
    (hX : D.dfu.step act = some X) : X.wdt_meta = D.dfu.wdt_meta := by
  obtain ⟨hne, X₀, hin⟩ := hD retries hpc
  have hfits : D.dfu.fits act := by
    cases act with
    | packet p f => exact hok
    | commit f => trivial
  have hdone := step_not_done hne hX hok
  exact ((hin.step hfits hX).session.kept hdone).1.trans (hin.session.kept hne).1.symm

/-- Outside the metadata only a session changes anything, and it keeps a log of it. -/
theorem step_sectors (h : D.step a = some D') (hok : D.uncommitted a) {s : Nat}
    (hs : s ≠ EMMC_SECTOR_METADATA) : D'.dfu.emmc s = D.dfu.emmc s ∨
      (∃ retries, D'.pc = .session retries) ∧ s ∈ D'.dfu.written := by
  cases step_move h with
  | @bootloader_init io _ =>
    obtain ⟨_, _, _, -, -, -, -, -, hemmc⟩ := D.bootloader_init_spec io
    exact .inl (hemmc s hs)
  | @session retries act X hpc hX =>
    by_cases hmem : s ∈ X.written
    · exact .inr ⟨⟨retries, hpc⟩, hmem⟩
    · exact .inl (Dfu.step_frame hX hs hmem)
  | accepted _ => cases hok
  | session_done _ _ => exact .inl (wdt_meta_write_emmc hs)
  | @confirm _ io _ =>
    left
    unfold Device.confirm
    dsimp only
    split <;> exact Survives.wdt_meta_confirm_slot_emmc hs
  | configure _ =>
    left
    unfold Device.configure watchdog_init
    dsimp only
    split
    · exact wdt_meta_write_emmc hs
    · rfl
  | corrupt _ => exact hok.elim
  | _ => exact .inl rfl

/-- The shadow and the record say the same, also behind the step. -/
theorem step_shadow (h : D.step a = some D') (hok : D.uncommitted a) (hD : D.Open)
    (hshadow : D.pc ≠ .reset → D.dfu.wdt_meta.active_app_slot = D.record.active_app_slot)
    (hpc : D'.pc ≠ .reset) : D'.dfu.wdt_meta.active_app_slot = D'.record.active_app_slot := by
  obtain ⟨hrecord, -⟩ := step_record hD hok h
  cases step_move h with
  | @bootloader_init io _ =>
    have hshadow := D.bootloader_init_meta io
    have hemmc := D.bootloader_init_emmc io
    rw [hok.1] at hshadow hemmc
    rw [hok.2] at hemmc
    have hwritten : (D.bootloader_init io).record = D.record.pass.sealed :=
      D.record_write (X := (D.bootloader_init io).dfu) _ hemmc
    rw [hwritten, hshadow]
    rfl
  | enter_dfu hattempt _ => exact hshadow (by rw [hattempt]; exact BootPc.noConfusion)
  | load_app hattempt _ => exact hshadow (by rw [hattempt]; exact BootPc.noConfusion)
  | @session retries act X hsession hX =>
    rw [hrecord.active rfl, ← hshadow (by rw [hsession]; exact BootPc.noConfusion)]
    exact congrArg _ (session_meta hD hsession hok hX)
  | accepted _ => cases hok
  | refused hsession => exact hshadow (by rw [hsession]; exact BootPc.noConfusion)
  | @session_done retries _ hsession hdone => exact ((hD retries hsession).1 hdone).elim
  | session_failed hsession => exact hshadow (by rw [hsession]; exact BootPc.noConfusion)
  | confirm happ =>
    have hsame := hshadow (by rw [happ]; exact BootPc.noConfusion)
    rw [hrecord.active rfl]
    exact (D.confirm_meta hok).elim (fun hkept => hkept.trans hsame) id
  | configure happ =>
    have hsame := hshadow (by rw [happ]; exact BootPc.noConfusion)
    rw [hrecord.active rfl]
    exact (D.configure_meta hok).elim (fun hkept => hkept.trans hsame) id
  | dfu_reboot _ => exact absurd rfl hpc
  | reset => exact absurd rfl hpc
  | corrupt _ => exact hok.elim

/-- Only the bootloader starts an app, and it starts the one in the active slot. -/
theorem step_running (h : D.step a = some D') (hok : D.uncommitted a) (hD : D.Open)
    (hshadow : D.pc ≠ .reset → D.dfu.wdt_meta.active_app_slot = D.record.active_app_slot)
    (hrun : ∀ sector, D.pc = .app sector → sector = APP_SLOT_TO_SECTOR D.record.active_app_slot)
    (sector : Nat) (hpc : D'.pc = .app sector) :
    sector = APP_SLOT_TO_SECTOR D'.record.active_app_slot := by
  obtain ⟨hrecord, -⟩ := step_record hD hok h
  cases step_move h with
  | load_app hattempt _ =>
    cases hpc
    rw [hrecord.active rfl, ← hshadow (by rw [hattempt]; exact BootPc.noConfusion)]
    rfl
  | session hsession _ => cases hsession.symm.trans hpc
  | refused hsession => cases hsession.symm.trans hpc
  | @session_done retries _ hsession hdone => exact ((hD retries hsession).1 hdone).elim
  | @confirm _ io _ =>
    have hpc' : (D.confirm io).pc = D.pc := by
      unfold Device.confirm
      dsimp only
      split <;> rfl
    rw [hrecord.active rfl]
    exact hrun sector (hpc'.symm.trans hpc)
  | configure _ =>
    rw [hrecord.active rfl]
    exact hrun sector hpc
  | corrupt _ => exact hok.elim
  | accepted _ => cases hok
  | _ => cases hpc

/-- An update of an app that is not the flashed one does not begin. -/
theorem step_target (h : D.step a = some D') (hok : D.spares slot a) (hD : D.Open)
    (hshadow : D.pc ≠ .reset → D.dfu.wdt_meta.active_app_slot = D.record.active_app_slot)
    (htarget : ∀ retries, D.pc = .session retries → D.dfu.app →
      D.dfu.wdt_meta.active_app_slot = slot)
    (retries : Nat) (hpc : D'.pc = .session retries) (happ : D'.dfu.app) :
    D'.dfu.wdt_meta.active_app_slot = slot := by
  cases step_move h with
  | enter_dfu _ _ => cases happ.1
  | @session retries act X hsession hX =>
    rw [session_meta hD hsession hok.uncommitted hX]
    rcases Dfu.step_app hX happ with hbefore | ⟨-, hnew, p, f, rfl, hcmd, hlen⟩
    · exact htarget retries hsession hbefore
    · exact (hshadow (by rw [hsession]; exact BootPc.noConfusion)).trans (hok.2 hcmd hnew hlen)
  | accepted _ => cases hok
  | refused hsession => exact htarget _ hsession happ
  | @confirm _ io hrun =>
    have hpc' : (D.confirm io).pc = D.pc := by
      unfold Device.confirm
      dsimp only
      split <;> rfl
    cases (hpc'.symm.trans hpc).symm.trans hrun
  | configure hrun => cases hrun.symm.trans hpc
  | corrupt _ => exact hok.elim
  | _ => cases hpc

/-- A session for the app that is not active does not get into the active slot. -/
theorem step_slot (h : D.step a = some D') (hok : D.uncommitted a) (hD : D.Open)
    (htarget : ∀ retries, D'.pc = .session retries → D'.dfu.app →
      D'.dfu.wdt_meta.active_app_slot = slot) (i : Nat) (hi : i < EMMC_SECTOR_SIZE_APP) :
    D'.dfu.emmc (APP_SLOT_TO_SECTOR slot + i) = D.dfu.emmc (APP_SLOT_TO_SECTOR slot + i) := by
  obtain ⟨-, hD'⟩ := step_record hD hok h
  have hslot := Survives.slot_cases slot
  refine (step_sectors h hok (Survives.slot_ne_metadata hslot)).resolve_right ?_
  rintro ⟨⟨retries, hpc⟩, hmem⟩
  obtain ⟨hne, X₀, hin⟩ := hD' retries hpc
  by_cases happ : D'.dfu.app
  · have hactive := htarget retries hpc happ
    rw [(hin.session.kept hne).1] at hactive
    rw [← hactive] at hmem
    exact (X₀.not_inSlot D'.dfu).1 i hi (hin.written _ hmem)
  · exact Survives.not_written_of_not_app hin happ hslot i hmem

/-- At the end of a session: it returns to the bootloader, or is cut off. -/
theorem Ended.step (hD : D.Ended) (h : D.step a = some D') :
    (∃ fault, D' = D.session_done fault) ∨ ∃ flags ram buf, D' = D.reboot flags ram buf := by
  obtain ⟨⟨retries, hpc⟩, hdone, -⟩ := hD
  cases a with
  | session_done fault =>
    simp only [Device.step, hpc, if_pos hdone, Option.some.injEq] at h
    exact .inl ⟨fault, h.symm⟩
  | reset flags ram buf =>
    cases h
    exact .inr ⟨flags, ram, buf, rfl⟩
  | session act =>
    simp only [Device.step, hpc, Dfu.step_done hdone, Option.map_none] at h
    cases h
  | read_back_error accepted fault =>
    simp only [Device.step, hpc, hdone] at h
    rw [if_neg (fun hfinish => DfuState.noConfusion hfinish.1)] at h
    cases h
  | session_failed =>
    simp only [Device.step, hpc, Dfu.open_session, hdone] at h
    cases h
  | _ =>
    simp only [Device.step, hpc] at h
    cases h

namespace Flashed

/-- While nothing is committed. -/
theorem step_open (hF : Flashed slot img D) (hmax : img.length ≤ 65535) (hD : D.Open)
    (hok : D.spares slot a) (h : D.step a = some D') : Flashed slot img D' := by
  obtain ⟨hrecord, hD'⟩ := step_record hD hok.uncommitted h
  have htarget := step_target h hok hD hF.shadow hF.target
  exact ⟨hF.holds.congr hmax (step_slot h hok.uncommitted hD htarget), hrecord.trial hF.active,
    step_shadow h hok.uncommitted hD hF.shadow,
    step_running h hok.uncommitted hD hF.shadow hF.running, htarget, .inr hD'⟩

/-- From the end of the session that has brought the image. -/
theorem step_ended (hF : Flashed slot img D) (hmax : img.length ≤ 65535) (hD : D.Ended)
    (h : D.step a = some D') : Flashed slot img D' := by
  have hslot := Survives.slot_cases slot
  rcases hD.step h with ⟨fault, rfl⟩ | ⟨flags, ram, buf, rfl⟩
  · obtain ⟨-, -, hmeta⟩ := hD
    have hrecord : (D.session_done fault).record = D.record ∨ (D.session_done fault).record =
        { D.dfu.wdt_meta with wdt_reset_count := 0 }.sealed := by
      cases fault with
      | none => exact .inr (D.record_write (X := (D.session_done none).dfu) _ rfl)
      | some e => exact .inl (record_congr rfl)
    have htrial : (D.session_done fault).record.app_slot_trial = D.record.app_slot_trial := by
      rcases hrecord with h | h <;> rw [h]
      rw [sealed_trial, hmeta]
    have hactive : (D.session_done fault).record.active_app_slot = D.record.active_app_slot := by
      rcases hrecord with h | h <;> rw [h]
      rw [hmeta]
      rfl
    refine ⟨hF.holds.congr hmax fun i _ => ?_, fun ht => ?_, fun _ => ?_, fun sector hpc => ?_,
      fun _ hpc => (nomatch hpc), .inr fun _ hpc => (nomatch hpc)⟩
    · exact wdt_meta_write_emmc (Survives.slot_ne_metadata hslot)
    · rw [htrial] at ht
      rw [hactive]
      exact hF.active ht
    · rw [hactive, ← hmeta]
      rfl
    · cases hpc
      rw [hactive, ← hmeta]
      rfl
  · exact ⟨hF.holds, hF.active, fun hpc => absurd rfl hpc, fun _ hpc => (nomatch hpc),
      fun _ hpc => (nomatch hpc), .inr fun _ hpc => (nomatch hpc)⟩

theorem step (hF : Flashed slot img D) (hmax : img.length ≤ 65535) (hok : D.spares slot a)
    (h : D.step a = some D') : Flashed slot img D' :=
  hF.phase.elim (fun hD => hF.step_ended hmax hD h) fun hD => hF.step_open hmax hD hok h

end Flashed

/-! ## A start -/

theorem policy_flags {m : WdtMeta} (h : m.policy_action ≠ .force_update) (D : Device) :
    (D.set_meta m).policy.dfu.boot_flags = D.dfu.boot_flags := by
  unfold policy set_meta
  dsimp only
  cases haction : m.policy_action with
  | nothing => rfl
  | force_update => exact absurd haction h
  | roll_back => rfl

/-- A valid image in the active slot is accepted. -/
theorem validate_flags (h : D.dfu.emmc.ValidApp D.active_sector) :
    (D.validate BootIo.fine.lost).dfu.boot_flags = { D.dfu.boot_flags with fw_crc_ok := 1 } := by
  have hvalid : (boot_validate_app (D.dfu.emmc.reads_but BootIo.fine.lost) D.sector_buf
      D.active_sector).1 = E_OK := (boot_validate_app_ok _ _ _).mpr h
  unfold validate set_flags
  simp only [if_pos hvalid]

/-- No update is asked for, and the slot was found valid or will be validated. -/
def Unasked (flags : BootFlags) : Prop :=
  (boot_flags_init flags).dfu_requested ≠ DFU_REQUEST ∧
    ((boot_flags_init flags).reset_reason = RESET_REASON_COLD ∨
      (boot_flags_init flags).fw_crc_ok ≠ 0)

namespace Flashed

/-- A start that keeps the slot goes to the app in it, without an update. -/
theorem start (hF : Flashed slot img D) (hpos : 0 < img.length) (hmax : img.length ≤ 65535)
    (hflags : Unasked D.dfu.boot_flags) (hslot : D.record.pass.active_app_slot = slot)
    (hpolicy : D.record.count_reset.policy_action ≠ .force_update) (crc ctx : UInt32) :
    ((D.bootloader_init .fine).bootloader_execute NUM_RETRIES crc ctx).pc =
      .app (APP_SLOT_TO_SECTOR slot) := by
  obtain ⟨hrequest, hchecked⟩ := hflags
  let D₂ := ((D.read_state .fine).set_meta D.record.count_reset).policy
  obtain ⟨hmeta, hemmc⟩ := (D.read_state .fine).policy_pass D.record
  have hsector : D₂.active_sector = APP_SLOT_TO_SECTOR slot := by
    rw [← hslot, ← hmeta]
    rfl
  have hvalid : D₂.dfu.emmc.ValidApp D₂.active_sector := by
    rw [hsector, show D₂.dfu.emmc = D.dfu.emmc from hemmc]
    exact hF.holds.valid hpos hmax
  have hD₂ : D₂.dfu.boot_flags = boot_flags_init D.dfu.boot_flags :=
    policy_flags hpolicy (D.read_state .fine)
  have hstart : ∀ D₃ : Device, D₃.active_sector = APP_SLOT_TO_SECTOR slot →
      D₃.dfu.boot_flags.dfu_requested ≠ DFU_REQUEST → D₃.dfu.boot_flags.fw_crc_ok ≠ 0 →
      (({ D₃.write_meta none with pc := .attempt NUM_RETRIES } : Device).bootloader_execute
        NUM_RETRIES crc ctx).pc = .app (APP_SLOT_TO_SECTOR slot) := by
    intro D₃ hactive hno hok
    unfold bootloader_execute
    rw [if_neg]
    · exact congrArg BootPc.app hactive
    · unfold enters_dfu
      rw [decide_eq_true_eq]
      rintro (hnone | hasked | hbad)
      · cases hnone
      · exact hno hasked
      · exact hok hbad
  unfold bootloader_init
  dsimp only
  split
  · refine hstart _ hsector ?_ ?_
    · show (D₂.validate BootIo.fine.lost).dfu.boot_flags.dfu_requested ≠ _
      rw [validate_flags hvalid, hD₂]
      exact hrequest
    · show (D₂.validate BootIo.fine.lost).dfu.boot_flags.fw_crc_ok ≠ _
      rw [validate_flags hvalid]
      exact (by decide : (1 : UInt32) ≠ 0)
  · rename_i hrevalidate
    refine hstart _ hsector ?_ ?_
    · show D₂.dfu.boot_flags.dfu_requested ≠ _
      rw [hD₂]
      exact hrequest
    · show D₂.dfu.boot_flags.fw_crc_ok ≠ _
      rw [hD₂]
      refine hchecked.resolve_left fun hcold => hrevalidate ?_
      unfold revalidates
      exact decide_eq_true (.inl hcold)

end Flashed

/-! ## From the host -/

end Device

end Rpitos
