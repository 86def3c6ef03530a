import Rpitos.Boot.BootloaderRuns

/-!
# Boot.ConfirmedImage

The image that was confirmed, over passes, resets and updates. `confirmed_image_survives`: while every
update of an app starts with a confirmed image in the active slot, one of the two slots holds such an
image. `confirmed_image_lost`: a second update while the first is still on trial overwrites the only
one.
-/

namespace Rpitos

open Function StatusCode DfuState

/-- A slot is valid or not by what its sectors hold. -/
theorem Emmc.holdsApp_congr {E E' : Emmc} {sector sector' : Nat}
    (h : ∀ i, i < EMMC_SECTOR_SIZE_APP → E (sector + i) = E' (sector' + i))
    (hE : E.HoldsApp sector) : E'.HoldsApp sector' := by
  have hheader : E sector = E' sector' := h 0 (by decide)
  obtain ⟨⟨hversion, hlength, hcrc⟩, hfits⟩ := hE
  rw [hheader] at hversion hlength hcrc hfits
  refine ⟨⟨hversion, hlength, ?_⟩, hfits⟩
  rw [← hcrc]
  congr 1
  refine List.map_congr_left fun i hi => ?_
  have hi := List.mem_range.mp hi
  have hsector : i / SECTOR_SIZE + 1 < EMMC_SECTOR_SIZE_APP := by
    unfold SECTOR_SIZE EMMC_SECTOR_SIZE_APP at *
    omega
  have hsame := h (i / SECTOR_SIZE + 1) hsector
  rw [show sector + (i / SECTOR_SIZE + 1) = sector + 1 + i / SECTOR_SIZE by ac_rfl,
    show sector' + (i / SECTOR_SIZE + 1) = sector' + 1 + i / SECTOR_SIZE by ac_rfl] at hsame
  rw [hsame]

/-- A step of a session changes, before its commit, only sectors in its log. -/
theorem Dfu.step_frame {X Y : Dfu} {a : DfuAction} {s : Nat} (h : X.step a = some Y)
    (hmeta : s ≠ EMMC_SECTOR_METADATA) (hs : s ∉ Y.written) : Y.emmc s = X.emmc s := by
  have hmove := Dfu.step_move h
  cases hmove with
  | start _ _ _ _ => exact Dfu.write_sector_kept (fun _ _ => rfl) s hs
  | start_self _ _ _ _ => exact Dfu.write_sector_kept (fun _ _ => rfl) s hs
  | @data p f _ _ _ =>
    obtain ⟨crc, n, heq⟩ := X.accept_data_eq p f
    rw [heq] at hs ⊢
    unfold Dfu.fill at hs ⊢
    split at hs
    · rename_i hfull
      rw [if_pos hfull]
      exact Dfu.write_sector_kept (fun _ _ => rfl) s hs
    · rename_i hpart
      rw [if_neg hpart]
  | @finish p f _ _ _ =>
    unfold Dfu.flush at hs ⊢
    split at hs
    · rename_i hu
      rw [if_pos hu]
      exact Dfu.write_sector_kept (fun _ _ => rfl) s hs
    · rename_i hu
      rw [if_neg hu]
  | commit _ _ _ => exact wdt_meta_write_emmc hmeta
  | _ => rfl

/-- An app's session stays one; it begins with an accepted `CMD_START`. -/
theorem Dfu.step_app {X Y : Dfu} {a : DfuAction} (h : X.step a = some Y) (happ : Y.app) :
    X.app ∨ X.open_session = true ∧ X.started = false ∧
      ∃ p f, a = .packet p f ∧ p.CMD = CMD_START ∧ p.LEN = START_PACKET_SIZE := by
  have hmove := Dfu.step_move h
  cases hmove with
  | @start p f hopen hcmd hnew hlen => exact .inr ⟨hopen, hnew, p, f, rfl, hcmd, hlen⟩
  | start_self _ _ _ _ => exact nomatch happ.2
  | @data p f _ _ _ =>
    obtain ⟨crc, n, heq⟩ := X.accept_data_eq p f
    obtain ⟨_, _, _, _, _, _, hfill⟩ := X.fill_eq p f
    rw [heq, hfill] at happ
    exact .inl happ
  | @finish p f _ _ _ =>
    unfold Dfu.flush at happ
    split at happ
    · exact .inl happ
    · exact .inl happ
  | _ => exact .inl happ

namespace Device

variable {D D' : Device} {a : DeviceAction} {sector : Nat}

/-- The slot holds an image that was confirmed. -/
def keeps (D : Device) (sector : Nat) : Prop :=
  ∃ img ∈ D.confirmed, ∀ i, i < EMMC_SECTOR_SIZE_APP → D.dfu.emmc (sector + i) = img i

/-- No error of the card; and no update that does not fit its slot, or that starts while a confirmed
image is not in the active slot. -/
def safe (D : Device) : DeviceAction → Prop
  | .session (.packet p f) => D.dfu.fits (.packet p f) ∧
      (p.CMD = CMD_START → D.dfu.started = false → p.LEN = START_PACKET_SIZE →
        D.confirmed ≠ [] → D.keeps D.active_sector)
  | .read_back_error _ _ => False
  | _ => True

theorem keeps.mono (h : D.keeps sector)
    (hemmc : ∀ i, i < EMMC_SECTOR_SIZE_APP → D'.dfu.emmc (sector + i) = D.dfu.emmc (sector + i))
    (hconfirmed : ∀ img ∈ D.confirmed, img ∈ D'.confirmed) : D'.keeps sector := by
  obtain ⟨img, hmem, himg⟩ := h
  exact ⟨img, hconfirmed img hmem, fun i hi => (hemmc i hi).trans (himg i hi)⟩

/-- The confirmed images, and that one of them is in a slot; an update of an app leaves the one in the
active slot alone. -/
structure Survives (D : Device) : Prop where
  images : ∀ img ∈ D.confirmed, Emmc.HoldsApp img 0
  kept : D.confirmed ≠ [] → D.keeps EMMC_SECTOR_APP_A ∨ D.keeps EMMC_SECTOR_APP_B
  session : ∀ retries, D.pc = .session retries → ∃ X₀, InSlot X₀ D.dfu ∧
    (D.dfu.app → D.confirmed ≠ [] → D.keeps (APP_SLOT_TO_SECTOR X₀.wdt_meta.active_app_slot))

namespace Survives

theorem slot_ne_metadata {i : Nat} (h : sector = EMMC_SECTOR_APP_A ∨ sector = EMMC_SECTOR_APP_B) :
    sector + i ≠ EMMC_SECTOR_METADATA := by
  have hA : EMMC_SECTOR_APP_A = EMMC_SECTOR_METADATA + 1024 := rfl
  have hB : EMMC_SECTOR_APP_B = EMMC_SECTOR_METADATA + 17408 := rfl
  omega

/-- Outside a session, nothing but the metadata changes. -/
theorem of_metadata (hD : D.Survives) (hpc : ∀ retries, D'.pc ≠ .session retries)
    (hemmc : ∀ s, s ≠ EMMC_SECTOR_METADATA → D'.dfu.emmc s = D.dfu.emmc s)
    (hconfirmed : D'.confirmed = D.confirmed) : D'.Survives := by
  have hkeeps : ∀ sector, sector = EMMC_SECTOR_APP_A ∨ sector = EMMC_SECTOR_APP_B →
      D.keeps sector → D'.keeps sector := by
    intro sector hsector h
    exact h.mono (fun i _ => hemmc _ (slot_ne_metadata hsector)) fun img hmem => hconfirmed ▸ hmem
  refine ⟨fun img hmem => hD.images img (hconfirmed ▸ hmem), fun hne => ?_,
    fun n h => (hpc n h).elim⟩
  rcases hD.kept (hconfirmed ▸ hne) with h | h
  · exact .inl (hkeeps _ (.inl rfl) h)
  · exact .inr (hkeeps _ (.inr rfl) h)

theorem slot_cases (slot : UInt32) : APP_SLOT_TO_SECTOR slot = EMMC_SECTOR_APP_A ∨
    APP_SLOT_TO_SECTOR slot = EMMC_SECTOR_APP_B :=
  (APP_SLOT_TO_SECTOR_cases slot).imp And.left And.left

/-- A bootloader update, like a session that has not begun, writes no app slot. -/
theorem not_written_of_not_app {X₀ X : Dfu} (hin : InSlot X₀ X) (happ : ¬X.app)
    (h : sector = EMMC_SECTOR_APP_A ∨ sector = EMMC_SECTOR_APP_B) (i : Nat) :
    sector + i ∉ X.written := by
  intro hmem
  cases hstart : X.started with
  | false =>
    rw [(hin.session.fresh hstart).1] at hmem
    cases hmem
  | true =>
    have hself : X.is_self_update = true := by
      cases hself : X.is_self_update with
      | true => rfl
      | false => exact (happ ⟨hstart, hself⟩).elim
    have hslot := hin.written _ hmem
    unfold Dfu.InSlot Dfu.target slot_size at hslot
    rw [hself] at hslot
    have hA : EMMC_SECTOR_APP_A = EMMC_SECTOR_BOOTLOADER + 2048 := rfl
    have hB : EMMC_SECTOR_APP_B = EMMC_SECTOR_BOOTLOADER + 18432 := rfl
    have hslot : sector + i < EMMC_SECTOR_BOOTLOADER + 512 := hslot.2
    omega

theorem session_step (hD : D.Survives) {retries : Nat} (hpc : D.pc = .session retries)
    {act : DfuAction} {X : Dfu} (hok : D.safe (.session act)) (hX : D.dfu.step act = some X) :
    ({ D with dfu := X } : Device).Survives := by
  obtain ⟨X₀, hin, hactive⟩ := hD.session retries hpc
  have hfits : D.dfu.fits act := by
    cases act with
    | packet p f => exact hok.1
    | commit f => trivial
  have hin' := hin.step hfits hX
  have hkeep : ∀ sector, sector = EMMC_SECTOR_APP_A ∨ sector = EMMC_SECTOR_APP_B →
      (∀ i, i < EMMC_SECTOR_SIZE_APP → sector + i ∉ X.written) → D.keeps sector →
        ({ D with dfu := X } : Device).keeps sector := by
    intro sector hsector hout h
    exact h.mono (fun i hi => Dfu.step_frame hX (slot_ne_metadata hsector) (hout i hi))
      fun _ hmem => hmem
  have hbefore : X.app → D.confirmed ≠ [] →
      D.keeps (APP_SLOT_TO_SECTOR X₀.wdt_meta.active_app_slot) := by
    intro happ hne
    rcases Dfu.step_app hX happ with happ | ⟨hopen, hnew, p, f, rfl, hcmd, hlen⟩
    · exact hactive happ hne
    · have hmeta := (hin.session.kept (Dfu.open_ne hopen).1).1
      rw [← hmeta]
      exact hok.2 hcmd hnew hlen hne
  have hafter : X.app → D.confirmed ≠ [] → ({ D with dfu := X } : Device).keeps
      (APP_SLOT_TO_SECTOR X₀.wdt_meta.active_app_slot) := by
    intro happ hne
    refine hkeep _ (slot_cases _) (fun i hi hmem => ?_) (hbefore happ hne)
    exact (X₀.not_inSlot X).1 i hi (hin'.written _ hmem)
  refine ⟨hD.images, fun hne => ?_, fun n _ => ⟨X₀, hin', hafter⟩⟩
  by_cases happ : X.app
  · have h := hafter happ hne
    rcases slot_cases X₀.wdt_meta.active_app_slot with hs | hs
    · exact .inl (hs ▸ h)
    · exact .inr (hs ▸ h)
  · rcases hD.kept hne with h | h
    · exact .inl (hkeep _ (.inl rfl) (fun i _ => not_written_of_not_app hin' happ (.inl rfl) i) h)
    · exact .inr (hkeep _ (.inr rfl) (fun i _ => not_written_of_not_app hin' happ (.inr rfl) i) h)

theorem wdt_meta_confirm_slot_emmc {E : Emmc} {m : WdtMeta} {fr fw : Option StatusCode} {s : Nat}
    (h : s ≠ EMMC_SECTOR_METADATA) : (wdt_meta_confirm_slot E m fr fw).2.2 s = E s := by
  unfold wdt_meta_confirm_slot
  dsimp only
  split
  · rfl
  · exact wdt_meta_write_emmc h

theorem confirm (hD : D.Survives) (hpc : ∀ retries, D.pc ≠ .session retries) (io : BootIo) :
    (D.confirm io).Survives := by
  unfold Device.confirm
  dsimp only
  generalize hE : wdt_meta_confirm_slot D.dfu.emmc D.dfu.wdt_meta io.meta_read io.meta_write = r
  have hemmc : ∀ s, s ≠ EMMC_SECTOR_METADATA → r.2.2 s = D.dfu.emmc s := by
    intro s hs
    rw [← hE]
    exact wdt_meta_confirm_slot_emmc hs
  have hmeta : ({ D with dfu := { D.dfu with wdt_meta := r.2.1, emmc := r.2.2 } } :
      Device).Survives := hD.of_metadata hpc hemmc rfl
  split
  · rename_i hconfirm
    have hslot := slot_cases r.2.1.active_app_slot
    refine ⟨fun img hmem => ?_, fun _ => ?_, fun n h => (hpc n h).elim⟩
    · rcases List.mem_append.mp hmem with hmem | hmem
      · exact hD.images img hmem
      · rw [List.mem_singleton.mp hmem]
        refine Emmc.holdsApp_congr (fun i _ => ?_) hconfirm.2
        show _ = r.2.2 (APP_SLOT_TO_SECTOR r.2.1.active_app_slot + (0 + i))
        rw [Nat.zero_add]
        rfl
    · rcases hslot with hs | hs
      · exact .inl ⟨_, List.mem_append_right _ (List.mem_singleton_self _), fun i _ => by
          rw [← hs]; rfl⟩
      · exact .inr ⟨_, List.mem_append_right _ (List.mem_singleton_self _), fun i _ => by
          rw [← hs]; rfl⟩
  · exact hmeta

theorem step (hD : D.Survives) (hok : D.safe a) (h : D.step a = some D') : D'.Survives := by
  cases step_move h with
  | @bootloader_init io _ =>
    obtain ⟨_, _, _, -, -, -, -, hconfirmed, hemmc⟩ := D.bootloader_init_spec io
    exact hD.of_metadata (fun n h => by cases h) hemmc hconfirmed
  | @enter_dfu retries crc ctx _ _ =>
    exact ⟨hD.images, hD.kept, fun n _ => ⟨_, ⟨.init D.dfu crc ctx, fun s hmem => by cases hmem⟩,
      fun happ => by cases happ.1⟩⟩
  | load_app _ _ => exact ⟨hD.images, hD.kept, fun n h => by cases h⟩
  | session hpc hX => exact hD.session_step hpc hok hX
  | accepted _ => exact hok.elim
  | refused _ => exact hok.elim
  | session_done _ _ =>
    exact hD.of_metadata (fun n h => by cases h) (fun s hs => wdt_meta_write_emmc hs) rfl
  | session_failed _ => exact ⟨hD.images, hD.kept, fun n h => by cases h⟩
  | @confirm _ io hpc => exact hD.confirm (fun n h => by cases hpc.symm.trans h) io
  | configure hpc =>
    refine hD.of_metadata (fun n h => by cases hpc.symm.trans h) (fun s hs => ?_) rfl
    unfold Device.configure watchdog_init
    dsimp only
    split
    · exact wdt_meta_write_emmc hs
    · rfl
  | dfu_reboot _ => exact ⟨hD.images, hD.kept, fun n h => by cases h⟩
  | reset => exact ⟨hD.images, hD.kept, fun n h => by cases h⟩
  | corrupt hpc =>
    exact hD.of_metadata (fun n h => by cases hpc.symm.trans h) (fun s hs => update_of_ne hs ..) rfl

theorem of_reach {D₀ : Device} (hpc : D₀.pc = .reset) (hnone : D₀.confirmed = [])
    (hr : Reach Device.step Device.safe D₀ D) : D.Survives := by
  refine hr.invariant ?_ fun s s' a hs hok h => hs.step hok h
  refine ⟨fun img hmem => ?_, fun h => (h hnone).elim, fun n h => (nomatch hpc.symm.trans h)⟩
  rw [hnone] at hmem
  cases hmem

end Survives
end Device

/-- Once a slot was confirmed while it held a valid image: while every update of an app starts with a
confirmed image in the active slot, one of the two slots holds an image that was confirmed, and it is
valid. -/
theorem confirmed_image_survives (D₀ D : Device) (hpc : D₀.pc = .reset) (hnone : D₀.confirmed = [])
    (hr : Reach Device.step Device.safe D₀ D) (hconfirmed : D.confirmed ≠ []) :
    ∃ sector, (sector = EMMC_SECTOR_APP_A ∨ sector = EMMC_SECTOR_APP_B) ∧ D.keeps sector ∧
      D.dfu.emmc.ValidApp sector := by
  have hinv := Device.Survives.of_reach hpc hnone hr
  have hvalid : ∀ sector, D.keeps sector → D.dfu.emmc.ValidApp sector := by
    intro sector ⟨img, hmem, himg⟩
    refine (Emmc.holdsApp_congr (fun i hi => ?_) (hinv.images img hmem)).1
    rw [Nat.zero_add]
    exact (himg i hi).symm
  rcases hinv.kept hconfirmed with h | h
  · exact ⟨_, .inl rfl, h, hvalid _ h⟩
  · exact ⟨_, .inr rfl, h, hvalid _ h⟩

/-- The image of `one_byte_data`, with one more byte behind the marker. -/
def other_data : DFU_Packet where
  CMD := CMD_DATA
  LEN := 40
  DATA := buffer_of (List.replicate 32 0 ++ word_bytes DFU_APP_MAGIC ++ [1, 0, 0, 0])
  CRC := 0

/-- A step that is safe whatever the slots hold. -/
def Device.plain (D : Device) : DeviceAction → Prop
  | .session (.packet p _) => p.CMD ≠ CMD_START ∧ p.LEN ≤ MAX_DATA_SIZE_BYTES ∧
      1 + (D.dfu.data.length + p.LEN) / SECTOR_SIZE < slot_size D.dfu.is_self_update
  | .read_back_error _ _ => False
  | _ => True

instance (D : Device) (a : DeviceAction) : Decidable (D.plain a) := by
  unfold Device.plain
  split <;> infer_instance

theorem Device.plain.safe {D : Device} {a : DeviceAction} (h : D.plain a) : D.safe a := by
  cases a with
  | «session» a =>
    cases a with
    | packet p f =>
      obtain ⟨hcmd, hlen, hroom⟩ := h
      refine ⟨⟨hlen, fun _ _ _ => Nat.le_of_lt hroom, fun _ _ _ => ?_⟩, fun h => (hcmd h).elim⟩
      exact Nat.lt_of_le_of_lt
        (Nat.add_le_add_left (Nat.div_le_div_right (Nat.le_add_right _ _)) 1) hroom
    | commit f => trivial
  | read_back_error accepted f => exact h
  | _ => trivial

/-- The image that was confirmed is not in slot A, which is still blank. -/
theorem Device.Survives.keeps_app_b {D : Device} (hD : D.Survives)
    (himages : D.confirmed.map (fun img => img 0 0) = [1])
    (hblank : D.dfu.emmc (EMMC_SECTOR_APP_A + 0) 0 = 0) : D.keeps EMMC_SECTOR_APP_B := by
  have hne : D.confirmed ≠ [] := fun h => by rw [h] at himages; cases himages
  refine (hD.kept hne).resolve_left ?_
  rintro ⟨img, hmem, himg⟩
  have hone : img 0 0 ∈ D.confirmed.map (fun img => img 0 0) := List.mem_map_of_mem hmem
  rw [himages, List.mem_singleton] at hone
  have hzero := congrFun (himg 0 (by decide)) 0
  rw [hblank, hone] at hzero
  exact absurd hzero (by decide)

theorem one_byte_start_safe {D : Device} (hkeeps : D.keeps D.active_sector) :
    D.safe (.session (.packet one_byte_start none)) := by
  refine ⟨⟨by decide, fun h => ?_, fun h => ?_⟩, fun _ _ _ _ => hkeeps⟩
  · exact absurd h (by decide)
  · exact absurd h (by decide)

/-- The app confirms its slot, and then goes to a session. -/
def confirm_and_trigger : List DeviceAction :=
  [.confirm .fine, .dfu_reboot dfu_blank (fun _ => 0), .bootloader_init .fine,
    .bootloader_execute 0 0]

theorem confirm_and_update_run : ((execute Device.step Device.plain device_booted
    confirm_and_trigger).bind fun D =>
      (D.step (.session (.packet one_byte_start none))).bind fun X =>
        (execute Device.step Device.plain X (session_run other_data).tail).map fun Y =>
          ((D.active_sector, D.confirmed.map fun img => img 0 0, D.dfu.emmc (EMMC_SECTOR_APP_A + 0) 0),
            Y.dfu.wdt_meta.active_app_slot, Y.dfu.emmc (EMMC_SECTOR_APP_A + 1) 36,
            Y.confirmed.length)) =
      some ((EMMC_SECTOR_APP_B, [1], 0), APP_SLOT_A, 1, 1) := by
  decide +kernel

/-- The app in slot B is confirmed, and then updated by an image for slot A. -/
theorem confirmed_image_survives_update :
    ∃ D, execute Device.step anything device_booted ([.confirm .fine] ++ update_run other_data) =
        some D ∧
      D.dfu.wdt_meta.active_app_slot = APP_SLOT_A ∧ D.dfu.emmc (EMMC_SECTOR_APP_A + 1) 36 = 1 ∧
      ∃ sector, (sector = EMMC_SECTOR_APP_A ∨ sector = EMMC_SECTOR_APP_B) ∧ D.keeps sector ∧
        D.dfu.emmc.ValidApp sector := by
  have hbooted : Reach Device.step Device.safe device_cold device_booted :=
    .step (a := .bootloader_execute 0 0) (.step (a := .bootloader_init .fine) .start trivial rfl)
      trivial device_booted_step
  -- up to the start packet, and behind it
  obtain ⟨D, hD, hrun⟩ := Option.bind_eq_some_iff.mp confirm_and_update_run
  obtain ⟨X, hX, hrun⟩ := Option.bind_eq_some_iff.mp hrun
  obtain ⟨Y, hY, h⟩ := Option.map_eq_some_iff.mp hrun
  simp only [Prod.mk.injEq] at h
  obtain ⟨⟨hactive, himages, hblank⟩, hslot, hother, hlength⟩ := h
  have hreach := (Reach.of_exec _ .start hD).mono fun _ _ h => Device.plain.safe h
  have hreach := hbooted.trans hreach
  have hkeeps : D.keeps D.active_sector :=
    hactive ▸ (Device.Survives.of_reach rfl rfl hreach).keeps_app_b himages hblank
  have hreach := (hreach.step (one_byte_start_safe hkeeps) hX).trans
    ((Reach.of_exec _ .start hY).mono fun _ _ h => Device.plain.safe h)
  refine ⟨Y, ?_, hslot, hother, confirmed_image_survives device_cold Y rfl rfl hreach fun h => ?_⟩
  · have hall : ∀ (D : Device) (a : DeviceAction), D.plain a → anything D a := fun _ _ _ => trivial
    rw [show [DeviceAction.confirm .fine] ++ update_run other_data =
      confirm_and_trigger ++ .session (.packet one_byte_start none) ::
        (session_run other_data).tail from rfl,
      execute_append, execute_mono hall _ hD, Option.bind_some, execute_cons hX]
    exact execute_mono hall _ hY
  · rw [h] at hlength
    cases hlength

/-- The app in slot B is confirmed; an update goes to slot A, and before the app there is confirmed,
a second one starts, which overwrites slot B. -/
theorem confirmed_image_lost :
    ∃ D, execute Device.step anything device_booted
        ([.confirm .fine] ++ update_run other_data ++
          [.dfu_reboot dfu_blank (fun _ => 0), .bootloader_init .fine, .bootloader_execute 0 0,
            .session (.packet (zero_packet CMD_START START_PACKET_SIZE) none)]) = some D ∧
      D.confirmed ≠ [] ∧
      ¬∃ sector, (sector = EMMC_SECTOR_APP_A ∨ sector = EMMC_SECTOR_APP_B) ∧ D.keeps sector ∧
        D.dfu.emmc.ValidApp sector := by
  have hrun : (execute Device.step anything device_booted
      ([.confirm .fine] ++ update_run other_data ++
        [.dfu_reboot dfu_blank (fun _ => 0), .bootloader_init .fine, .bootloader_execute 0 0,
          .session (.packet (zero_packet CMD_START START_PACKET_SIZE) none)])).map
      (fun D => (D.confirmed.map fun img => (img 0 0, img 1 36),
        D.dfu.emmc (EMMC_SECTOR_APP_A + 1) 36, D.dfu.emmc (EMMC_SECTOR_APP_B + 0) 0)) =
      some ([(1, 0)], 1, 0) := by
    decide +kernel
  obtain ⟨D, hD, h⟩ := Option.map_eq_some_iff.mp hrun
  have hconfirmed : (D.confirmed.map fun img => (img 0 0, img 1 36)) = [(1, 0)] :=
    congrArg Prod.fst h
  have hA : D.dfu.emmc (EMMC_SECTOR_APP_A + 1) 36 = 1 := congrArg (fun t => t.2.1) h
  have hB : D.dfu.emmc (EMMC_SECTOR_APP_B + 0) 0 = 0 := congrArg (fun t => t.2.2) h
  have himages : ∀ img ∈ D.confirmed, img 0 0 = 1 ∧ img 1 36 = 0 := by
    intro img hmem
    have hmem := List.mem_map_of_mem (f := fun img : Nat → Sector => (img 0 0, img 1 36)) hmem
    rw [hconfirmed, List.mem_singleton] at hmem
    exact ⟨congrArg Prod.fst hmem, congrArg Prod.snd hmem⟩
  refine ⟨D, hD, fun hnil => ?_, ?_⟩
  · rw [hnil] at hconfirmed
    cases hconfirmed
  · rintro ⟨sector, rfl | rfl, ⟨img, hmem, himg⟩, -⟩
    · have hsame := congrFun (himg 1 (by decide)) 36
      rw [hA, (himages img hmem).2] at hsame
      exact absurd hsame (by decide)
    · have hsame := congrFun (himg 0 (by decide)) 0
      rw [hB, (himages img hmem).1] at hsame
      exact absurd hsame (by decide)

end Rpitos
