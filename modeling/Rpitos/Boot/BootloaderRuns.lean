import Rpitos.Boot.DfuImage
import Rpitos.Boot.Bootloader

/-!
# Boot.BootloaderRuns

Passes of the bootloader over runs. `DeviceMove` says what a step can do, `bootloader_init_spec` says what a pass decides before
`bootloader_execute`; the invariants are about how the flags in the shared RAM go together.
`boot_only_validated`: no slot is loaded without a session that was not accepted in the same pass.
`dfu_request_served`: after a session that returned `E_OK`, the next one needs a reason, unless a warm
reset finds the request of the last one still there. `dfu_request_stays`: it is never taken back.
-/

namespace Rpitos

open Function StatusCode DfuState

/-- A step of the device. -/
inductive DeviceMove (D : Device) : DeviceAction → Device → Prop
  | bootloader_init {io : BootIo} (hpc : D.pc = .reset) :
      DeviceMove D (.bootloader_init io) (D.bootloader_init io)
  | enter_dfu {retries : Nat} {crc ctx : UInt32} (hpc : D.pc = .attempt retries)
      (henter : D.enters_dfu retries = true) : DeviceMove D (.bootloader_execute crc ctx)
        { D with dfu := D.dfu.init crc ctx, pc := .session retries, dfu_in_pass := true }
  | load_app {retries : Nat} {crc ctx : UInt32} (hpc : D.pc = .attempt retries)
      (henter : D.enters_dfu retries = false) :
      DeviceMove D (.bootloader_execute crc ctx) D.load_app
  | session {retries : Nat} {act : DfuAction} {X : Dfu} (hpc : D.pc = .session retries)
      (hX : D.dfu.step act = some X) : DeviceMove D (.session act) { D with dfu := X }
  | accepted {retries : Nat} {fault : Option StatusCode} (hpc : D.pc = .session retries) :
      DeviceMove D (.read_back_error true fault) { D with dfu := D.dfu.commit_slot fault }
  | refused {retries : Nat} {fault : Option StatusCode} (hpc : D.pc = .session retries) :
      DeviceMove D (.read_back_error false fault) { D with dfu := D.dfu.abort }
  | session_done {retries : Nat} {fault : Option StatusCode} (hpc : D.pc = .session retries)
      (hdone : D.dfu.state = DFU_STATE_DONE) :
      DeviceMove D (.session_done fault) (D.session_done fault)
  | session_failed {retries : Nat} (hpc : D.pc = .session retries) :
      DeviceMove D .session_failed { D with pc := .attempt (retries - 1) }
  | confirm {sector : Nat} {io : BootIo} (hpc : D.pc = .app sector) :
      DeviceMove D (.confirm io) (D.confirm io)
  | configure {sector : Nat} {tolerance : Int32} {policy : UInt32} {io : BootIo}
      (hpc : D.pc = .app sector) :
      DeviceMove D (.configure tolerance policy io) (D.configure tolerance policy io)
  | dfu_reboot {sector : Nat} {ram : Dfu} {buf : Sector} (hpc : D.pc = .app sector) :
      DeviceMove D (.dfu_reboot ram buf)
        { D.reboot (Device.trigger_flags D.dfu.boot_flags) ram buf with
          since := D.since.map Since.request }
  | reset {flags : BootFlags} {ram : Dfu} {buf : Sector} :
      DeviceMove D (.reset flags ram buf) (D.reboot flags ram buf)
  | corrupt {buf : Sector} (hpc : D.pc = .reset) : DeviceMove D (.corrupt buf)
      { D with dfu := { D.dfu with emmc := update D.dfu.emmc EMMC_SECTOR_METADATA buf } }

theorem Device.step_move {D D' : Device} {a : DeviceAction} (h : D.step a = some D') :
    DeviceMove D a D' := by
  cases a with
  | bootloader_init io =>
    obtain ⟨hpc, h⟩ := Option.ite_none_right_eq_some.mp h
    cases h
    exact .bootloader_init hpc
  | bootloader_execute crc ctx =>
    simp only [Device.step] at h
    split at h
    · rename_i retries hpc
      cases h
      unfold Device.bootloader_execute
      cases henter : D.enters_dfu retries with
      | true => exact .enter_dfu hpc henter
      | false => exact .load_app hpc henter
    · cases h
  | session act =>
    simp only [Device.step] at h
    split at h
    · rename_i retries hpc
      obtain ⟨X, hX, rfl⟩ := Option.map_eq_some_iff.mp h
      exact .session hpc hX
    · cases h
  | read_back_error accepted fault =>
    simp only [Device.step] at h
    split at h
    · rename_i retries hpc
      obtain ⟨-, h⟩ := Option.ite_none_right_eq_some.mp h
      cases h
      cases accepted with
      | true => exact .accepted hpc
      | false => exact .refused hpc
    · cases h
  | session_done fault =>
    simp only [Device.step] at h
    split at h
    · rename_i retries hpc
      obtain ⟨hdone, h⟩ := Option.ite_none_right_eq_some.mp h
      cases h
      exact .session_done hpc hdone
    · cases h
  | session_failed =>
    simp only [Device.step] at h
    split at h
    · rename_i retries hpc
      obtain ⟨-, h⟩ := Option.ite_none_right_eq_some.mp h
      cases h
      exact .session_failed hpc
    · cases h
  | confirm io =>
    simp only [Device.step] at h
    split at h
    · rename_i sector hpc
      cases h
      exact .confirm hpc
    · cases h
  | configure tolerance policy io =>
    simp only [Device.step] at h
    split at h
    · rename_i sector hpc
      cases h
      exact .configure hpc
    · cases h
  | dfu_reboot ram buf =>
    simp only [Device.step] at h
    split at h
    · rename_i sector hpc
      cases h
      exact .dfu_reboot hpc
    · cases h
  | reset flags ram buf =>
    cases h
    exact .reset
  | corrupt buf =>
    obtain ⟨hpc, h⟩ := Option.ite_none_right_eq_some.mp h
    cases h
    exact .corrupt hpc

namespace Device

variable {D : Device}

@[simp] theorem write_meta_flags (D : Device) (f : Option StatusCode) :
    (D.write_meta f).dfu.boot_flags = D.dfu.boot_flags := rfl

@[simp] theorem write_meta_active (D : Device) (f : Option StatusCode) :
    (D.write_meta f).active_sector = D.active_sector := rfl

theorem policy_spec (D : Device) : ∃ forced : Bool,
    D.policy.dfu.boot_flags = { D.dfu.boot_flags with
      dfu_requested := if forced then DFU_REQUEST else D.dfu.boot_flags.dfu_requested
      reset_reason := if forced then RESET_REASON_SOFTWARE else D.dfu.boot_flags.reset_reason } ∧
    D.policy.since = D.since.map (fun s => ⟨s.requested || forced, s.failed⟩) ∧
    D.policy.validated = D.validated ∧ D.policy.confirmed = D.confirmed ∧
    D.policy.dfu.emmc = D.dfu.emmc := by
  have hid : (fun s : Since => (⟨s.requested || false, s.failed⟩ : Since)) = id := by
    funext s
    rw [Bool.or_false]
    rfl
  have hset : (fun s : Since => (⟨s.requested || true, s.failed⟩ : Since)) = Since.request := by
    funext s
    rw [Bool.or_true]
    rfl
  unfold policy
  dsimp only
  cases D.dfu.wdt_meta.policy_action with
  | nothing => exact ⟨false, rfl, by rw [hid, Option.map_id, id], rfl, rfl, rfl⟩
  | force_update => exact ⟨true, rfl, by rw [hset]; rfl, rfl, rfl, rfl⟩
  | roll_back => exact ⟨false, rfl, by rw [hid, Option.map_id, id]; rfl, rfl, rfl, rfl⟩

theorem validate_spec (D : Device) (lost : Nat → Bool) : ∃ ok : Bool,
    (D.validate lost).dfu.boot_flags = { D.dfu.boot_flags with fw_crc_ok := if ok then 1 else 0 } ∧
    (D.validate lost).since = D.since.map (fun s => ⟨s.requested, s.failed || !ok⟩) ∧
    (D.validate lost).validated = (if ok then some (D.validate lost).active_sector else none) ∧
    (D.validate lost).confirmed = D.confirmed ∧ (D.validate lost).dfu.emmc = D.dfu.emmc := by
  refine ⟨decide ((boot_validate_app (D.dfu.emmc.reads_but lost) D.sector_buf
    D.active_sector).1 = E_OK), ?_, rfl, ?_, rfl, rfl⟩
  · unfold validate set_flags
    simp only [decide_eq_true_eq]
  · unfold validate set_flags
    simp only [decide_eq_true_eq]
    rfl

/-- A pass up to `bootloader_execute`: whether the policy forces an update, whether the active slot is
validated, and the result. A cold start always validates. -/
theorem bootloader_init_spec (D : Device) (io : BootIo) : ∃ forced checked ok : Bool,
    ((boot_flags_init D.dfu.boot_flags).reset_reason = RESET_REASON_COLD → checked = true) ∧
    (D.bootloader_init io).dfu.boot_flags = { boot_flags_init D.dfu.boot_flags with
      dfu_requested :=
        if forced then DFU_REQUEST else (boot_flags_init D.dfu.boot_flags).dfu_requested
      reset_reason :=
        if forced then RESET_REASON_SOFTWARE else (boot_flags_init D.dfu.boot_flags).reset_reason
      fw_crc_ok :=
        if checked then (if ok then 1 else 0)
        else (boot_flags_init D.dfu.boot_flags).fw_crc_ok } ∧
    (D.bootloader_init io).validated =
      (if checked && ok then some (D.bootloader_init io).active_sector else none) ∧
    (D.bootloader_init io).since = D.since.map (fun s =>
      ⟨s.requested || forced, s.failed || (checked && !ok)⟩) ∧
    (D.bootloader_init io).confirmed = D.confirmed ∧
    ∀ s, s ≠ EMMC_SECTOR_METADATA → (D.bootloader_init io).dfu.emmc s = D.dfu.emmc s := by
  have hread : (D.read_state io).dfu.boot_flags = boot_flags_init D.dfu.boot_flags ∧
      (D.read_state io).since = D.since ∧ (D.read_state io).validated = none ∧
      (D.read_state io).confirmed = D.confirmed ∧ (D.read_state io).dfu.emmc = D.dfu.emmc :=
    ⟨rfl, rfl, rfl, rfl, rfl⟩
  obtain ⟨hflags, hsince, hvalidated, hconfirmed, hemmc⟩ := hread
  unfold bootloader_init
  dsimp only
  generalize D.read_state io = D₁ at *
  obtain ⟨forced, hf, hs, hv, hc, he⟩ :=
    (D₁.set_meta D₁.dfu.wdt_meta.count_reset).policy_spec
  generalize (D₁.set_meta D₁.dfu.wdt_meta.count_reset).policy = D₂ at *
  have hf : D₂.dfu.boot_flags = { boot_flags_init D.dfu.boot_flags with
      dfu_requested :=
        if forced then DFU_REQUEST else (boot_flags_init D.dfu.boot_flags).dfu_requested
      reset_reason := if forced then RESET_REASON_SOFTWARE
        else (boot_flags_init D.dfu.boot_flags).reset_reason } := by
    rw [hf, ← hflags]
    rfl
  have hs : D₂.since = D.since.map (fun s => ⟨s.requested || forced, s.failed⟩) := by
    rw [hs, ← hsince]
    rfl
  cases hcheck : revalidates D₁.dfu.boot_flags D₁.dfu.wdt_meta with
  | true =>
    obtain ⟨ok, hf', hs', hv', hc', he'⟩ := D₂.validate_spec io.lost
    rw [if_pos rfl]
    generalize D₂.validate io.lost = D₃ at *
    refine ⟨forced, true, ok, fun _ => rfl, ?_, ?_, ?_, ?_, fun s hne => ?_⟩
    · rw [write_meta_flags, hf', hf]
      rfl
    · rw [Bool.true_and]
      exact hv'
    · show D₃.since = _
      rw [hs', hs, Option.map_map]
      rfl
    · exact (hc'.trans hc).trans hconfirmed
    · refine (wdt_meta_write_emmc hne).trans ?_
      rw [he', he]
      exact congrFun hemmc s
  | false =>
    rw [if_neg Bool.false_ne_true]
    refine ⟨forced, false, false, fun h => ?_, ?_, ?_, ?_, ?_, fun s hne => ?_⟩
    · rw [← hflags] at h
      unfold revalidates at hcheck
      rw [decide_eq_false_iff_not] at hcheck
      exact absurd (.inl h) hcheck
    · rw [write_meta_flags, hf]
      rfl
    · exact hv.trans hvalidated
    · show D₂.since = _
      rw [hs]
      simp
    · exact hc.trans hconfirmed
    · refine (wdt_meta_write_emmc hne).trans ?_
      rw [he]
      exact congrFun hemmc s

end Device

theorem boot_flags_init_valid (flags : BootFlags) :
    boot_flags_valid (boot_flags_init flags) = true := by
  unfold boot_flags_init
  split
  · assumption
  · rfl

/-- A session sets `fw_crc_ok` when it commits, and nothing else in the shared flags. -/
theorem Dfu.step_flags {X Y : Dfu} {a : DfuAction} (h : X.step a = some Y) :
    Y.state = DFU_STATE_DONE ∧ Y.boot_flags = { X.boot_flags with fw_crc_ok := 1 } ∨
      Y.state ≠ DFU_STATE_DONE ∧ Y.boot_flags = X.boot_flags := by
  have hmove := Dfu.step_move h
  cases hmove with
  | idle hopen => exact .inr ⟨(Dfu.open_ne hopen).1, rfl⟩
  | @data p f _ _ hst =>
    obtain ⟨crc, n, heq⟩ := X.accept_data_eq p f
    obtain ⟨_, _, _, _, _, _, hfill⟩ := X.fill_eq p f
    rw [heq, hfill]
    exact .inr ⟨fun h => DfuState.noConfusion (hst.symm.trans h), rfl⟩
  | @finish p f _ _ _ =>
    refine .inr ⟨DfuState.noConfusion, ?_⟩
    unfold Dfu.flush
    split <;> rfl
  | commit _ _ _ => exact .inl ⟨rfl, rfl⟩
  | _ => exact .inr ⟨DfuState.noConfusion, rfl⟩

namespace Device

variable {D D' : Device} {a : DeviceAction}

/-- The flags in the shared RAM, at the flags of a reset: a warm one keeps them, a cold one does not
leave the magic. -/
def reset_ok (D : Device) : DeviceAction → Prop
  | .reset flags _ _ => flags = D.dfu.boot_flags ∨ boot_flags_valid flags = false
  | _ => True

/-- How the flags go together, and with them what a pass has validated. -/
structure Flags (D : Device) : Prop where
  valid : D.pc ≠ .reset → boot_flags_valid D.dfu.boot_flags = true
  /-- A reset reason other than a cold start comes with a request. -/
  reason : boot_flags_valid D.dfu.boot_flags = true →
    D.dfu.boot_flags.reset_reason ≠ RESET_REASON_COLD → D.dfu.boot_flags.dfu_requested = DFU_REQUEST
  attempt : ∀ retries, D.pc = .attempt retries → D.dfu_in_pass = false →
    D.enters_dfu retries = true ∨ D.validated = some D.active_sector
  session : ∀ retries, D.pc = .session retries → D.dfu_in_pass = true
  app : ∀ sector, D.pc = .app sector → D.dfu_in_pass = false → D.validated = some sector

namespace Flags

theorem at_reset (hpc : D.pc = .reset)
    (hreason : boot_flags_valid D.dfu.boot_flags = true →
      D.dfu.boot_flags.reset_reason ≠ RESET_REASON_COLD →
      D.dfu.boot_flags.dfu_requested = DFU_REQUEST) : D.Flags :=
  ⟨fun h => absurd hpc h, hreason, fun _ h => BootPc.noConfusion (hpc.symm.trans h),
    fun _ h => BootPc.noConfusion (hpc.symm.trans h),
    fun _ h => BootPc.noConfusion (hpc.symm.trans h)⟩

theorem at_attempt {retries : Nat} (hpc : D.pc = .attempt retries)
    (hvalid : boot_flags_valid D.dfu.boot_flags = true)
    (hreason : D.dfu.boot_flags.reset_reason ≠ RESET_REASON_COLD →
      D.dfu.boot_flags.dfu_requested = DFU_REQUEST)
    (henter : D.dfu_in_pass = false →
      D.enters_dfu retries = true ∨ D.validated = some D.active_sector) : D.Flags := by
  refine ⟨fun _ => hvalid, fun _ => hreason, fun n h => ?_, fun n h => ?_, fun n h => ?_⟩
  · cases hpc.symm.trans h
    exact henter
  · cases hpc.symm.trans h
  · cases hpc.symm.trans h

theorem at_session {retries : Nat} (hpc : D.pc = .session retries)
    (hvalid : boot_flags_valid D.dfu.boot_flags = true)
    (hreason : D.dfu.boot_flags.reset_reason ≠ RESET_REASON_COLD →
      D.dfu.boot_flags.dfu_requested = DFU_REQUEST) (hpass : D.dfu_in_pass = true) : D.Flags :=
  ⟨fun _ => hvalid, fun _ => hreason, fun _ h => BootPc.noConfusion (hpc.symm.trans h),
    fun _ _ => hpass, fun _ h => BootPc.noConfusion (hpc.symm.trans h)⟩

theorem at_app {sector : Nat} (hpc : D.pc = .app sector)
    (hvalid : boot_flags_valid D.dfu.boot_flags = true)
    (hreason : D.dfu.boot_flags.reset_reason ≠ RESET_REASON_COLD →
      D.dfu.boot_flags.dfu_requested = DFU_REQUEST)
    (hpass : D.dfu_in_pass = false → D.validated = some sector) : D.Flags := by
  refine ⟨fun _ => hvalid, fun _ => hreason, fun n h => ?_, fun n h => ?_, fun n h => ?_⟩
  · cases hpc.symm.trans h
  · cases hpc.symm.trans h
  · cases hpc.symm.trans h
    exact hpass

theorem bootloader_init (hD : D.Flags) (io : BootIo) : (D.bootloader_init io).Flags := by
  obtain ⟨forced, checked, ok, hcold, hflags, hvalidated, -⟩ := D.bootloader_init_spec io
  have hinit := boot_flags_init_valid D.dfu.boot_flags
  have hreason : (boot_flags_init D.dfu.boot_flags).reset_reason ≠ RESET_REASON_COLD →
      (boot_flags_init D.dfu.boot_flags).dfu_requested = DFU_REQUEST := by
    unfold boot_flags_init
    split
    · rename_i hvalid
      exact hD.reason hvalid
    · exact fun h => (h rfl).elim
  refine at_attempt rfl ?_ (fun hne => ?_) fun _ => ?_
  · rw [hflags]
    exact hinit
  · rw [hflags] at hne ⊢
    cases forced with
    | true => rfl
    | false => exact hreason hne
  · unfold enters_dfu
    rw [hflags, hvalidated]
    cases checked with
    | true =>
      cases ok with
      | true => exact .inr rfl
      | false => simp
    | false =>
      have hreq := hreason fun h => Bool.false_ne_true (hcold h)
      cases forced <;> simp [hreq]

/-- A step of a session changes only the session. -/
theorem session_step (hD : D.Flags) {retries : Nat} (hpc : D.pc = .session retries) {X : Dfu}
    (hmagic : X.boot_flags.magic = D.dfu.boot_flags.magic)
    (hreason : X.boot_flags.reset_reason = D.dfu.boot_flags.reset_reason)
    (hrequest : X.boot_flags.dfu_requested = D.dfu.boot_flags.dfu_requested) :
    ({ D with dfu := X } : Device).Flags := by
  have hvalid := hD.valid (by rw [hpc]; exact BootPc.noConfusion)
  refine at_session hpc ?_ (fun hne => ?_) (hD.session retries hpc)
  · unfold boot_flags_valid at hvalid ⊢
    rw [hmagic]
    exact hvalid
  · exact hrequest.trans (hD.reason hvalid fun h => hne (hreason.trans h))

theorem step (hD : D.Flags) (hok : D.reset_ok a) (h : D.step a = some D') : D'.Flags := by
  have hvalid : ∀ {pc : BootPc}, D.pc = pc → pc ≠ .reset →
      boot_flags_valid D.dfu.boot_flags = true := fun hpc hne => hD.valid (hpc ▸ hne)
  cases step_move h with
  | bootloader_init _ => exact hD.bootloader_init _
  | enter_dfu hpc _ =>
    have hv := hvalid hpc BootPc.noConfusion
    exact at_session rfl hv (hD.reason hv) rfl
  | @load_app retries _ _ hpc henter =>
    have hv := hvalid hpc BootPc.noConfusion
    exact at_app rfl hv (hD.reason hv) fun hpass =>
      (hD.attempt retries hpc hpass).resolve_left (by rw [henter]; exact Bool.false_ne_true)
  | session hpc hX =>
    rcases Dfu.step_flags hX with ⟨-, hf⟩ | ⟨-, hf⟩ <;>
      exact hD.session_step hpc (by rw [hf]) (by rw [hf]) (by rw [hf])
  | accepted hpc => exact hD.session_step hpc rfl rfl rfl
  | refused hpc => exact hD.session_step hpc rfl rfl rfl
  | @session_done retries _ hpc _ =>
    have hv := hvalid hpc BootPc.noConfusion
    exact at_app rfl hv (hD.reason hv) fun hpass =>
      Bool.noConfusion ((hD.session retries hpc).symm.trans hpass)
  | @session_failed retries hpc =>
    have hv := hvalid hpc BootPc.noConfusion
    exact at_attempt rfl hv (hD.reason hv) fun hpass =>
      Bool.noConfusion ((hD.session retries hpc).symm.trans hpass)
  | @confirm sector io hpc =>
    have hv := hvalid hpc BootPc.noConfusion
    unfold Device.confirm
    dsimp only
    split <;> exact at_app hpc hv (hD.reason hv) (hD.app sector hpc)
  | @configure sector _ _ _ hpc =>
    have hv := hvalid hpc BootPc.noConfusion
    exact at_app hpc hv (hD.reason hv) (hD.app sector hpc)
  | dfu_reboot _ => exact at_reset rfl fun _ _ => rfl
  | reset =>
    refine at_reset rfl fun hv hne => ?_
    rcases hok with rfl | hcold
    · exact hD.reason hv hne
    · exact Bool.noConfusion (hcold.symm.trans hv)
  | corrupt hpc => exact at_reset hpc hD.reason

end Flags

end Device

/-- From a cold start on: when the app that runs was loaded in a pass without a session, its slot is
one that `boot_validate_app` accepted in that pass. -/
theorem boot_only_validated (D₀ D : Device) (hpc : D₀.pc = .reset)
    (hcold : boot_flags_valid D₀.dfu.boot_flags = false)
    (hr : Reach Device.step Device.reset_ok D₀ D) (sector : Nat) (happ : D.pc = .app sector)
    (hpass : D.dfu_in_pass = false) : D.validated = some sector := by
  have hinv : D.Flags := by
    refine hr.invariant ?_ fun s s' a hs hok h => hs.step hok h
    exact .at_reset hpc fun h => Bool.noConfusion (hcold.symm.trans h)
  exact hinv.app sector happ hpass

/-- A cold start with the image of `one_byte_update` in slot B. -/
def device_cold : Device where
  dfu := one_byte_committed
  sector_buf := fun _ => 0
  pc := .reset
  confirmed := []
  validated := none
  dfu_in_pass := false
  since := none

def device_checked : Device := device_cold.bootloader_init .fine
def device_booted : Device := device_checked.bootloader_execute NUM_RETRIES 0 0

theorem device_booted_step :
    device_checked.step (.bootloader_execute 0 0) = some device_booted := rfl

theorem boot_only_validated_one_byte : device_booted.validated = some EMMC_SECTOR_APP_B :=
  have hr : Reach Device.step Device.reset_ok device_cold device_booted :=
    .step (a := .bootloader_execute 0 0)
      (.step (a := .bootloader_init .fine) .start trivial rfl) trivial device_booted_step
  boot_only_validated device_cold _ rfl (by decide +kernel) hr EMMC_SECTOR_APP_B (by decide +kernel)
    (by decide +kernel)

namespace Device

variable {D D' : Device} {a : DeviceAction}

/-- No warm reset finds the request of a session that has returned `E_OK`. -/
def request_retired (D : Device) : DeviceAction → Prop
  | .reset flags _ _ => boot_flags_valid flags = false ∨
      flags = D.dfu.boot_flags ∧
        (D.since = some ⟨false, false⟩ → D.dfu.boot_flags.dfu_requested ≠ DFU_REQUEST)
  | _ => True

instance (D : Device) : (a : DeviceAction) → Decidable (D.request_retired a)
  | .reset _ _ _ => inferInstanceAs (Decidable (_ ∨ _ ∧ (_ → _)))
  | .bootloader_init _ | .bootloader_execute _ _ | .session _ | .read_back_error _ _
  | .session_done _ | .session_failed | .confirm _ | .configure _ _ _ | .dfu_reboot _ _
  | .corrupt _ => .isTrue trivial

/-- Since the last session that returned `E_OK`, nothing asks for another one. -/
structure Served (D : Device) : Prop where
  valid : D.pc ≠ .reset → boot_flags_valid D.dfu.boot_flags = true
  committed : ∀ retries, D.pc = .session retries → D.dfu.state = DFU_STATE_DONE →
    D.dfu.boot_flags.fw_crc_ok ≠ 0
  crc_ok : D.since = some ⟨false, false⟩ → boot_flags_valid D.dfu.boot_flags = true →
    D.dfu.boot_flags.fw_crc_ok ≠ 0
  request : D.since = some ⟨false, false⟩ → boot_flags_valid D.dfu.boot_flags = true →
    (∀ sector, D.pc ≠ .app sector) → D.dfu.boot_flags.dfu_requested ≠ DFU_REQUEST
  attempt : D.since = some ⟨false, false⟩ → ∀ retries, D.pc = .attempt retries → retries ≠ 0
  session : ∀ retries, D.pc = .session retries → D.since ≠ some ⟨false, false⟩

namespace Served

theorem at_reset (hpc : D.pc = .reset)
    (hcrc : D.since = some ⟨false, false⟩ → boot_flags_valid D.dfu.boot_flags = true →
      D.dfu.boot_flags.fw_crc_ok ≠ 0)
    (hrequest : D.since = some ⟨false, false⟩ → boot_flags_valid D.dfu.boot_flags = true →
      D.dfu.boot_flags.dfu_requested ≠ DFU_REQUEST) : D.Served :=
  ⟨fun h => absurd hpc h, fun _ h => BootPc.noConfusion (hpc.symm.trans h), hcrc,
    fun hs hv _ => hrequest hs hv, fun _ _ h => BootPc.noConfusion (hpc.symm.trans h),
    fun _ h => BootPc.noConfusion (hpc.symm.trans h)⟩

theorem at_attempt {retries : Nat} (hpc : D.pc = .attempt retries)
    (hvalid : boot_flags_valid D.dfu.boot_flags = true)
    (hquiet : D.since = some ⟨false, false⟩ → D.dfu.boot_flags.fw_crc_ok ≠ 0 ∧
      D.dfu.boot_flags.dfu_requested ≠ DFU_REQUEST ∧ retries ≠ 0) : D.Served := by
  refine ⟨fun _ => hvalid, fun _ h => BootPc.noConfusion (hpc.symm.trans h),
    fun hs _ => (hquiet hs).1, fun hs _ _ => (hquiet hs).2.1, fun hs n h => ?_,
    fun _ h => BootPc.noConfusion (hpc.symm.trans h)⟩
  cases hpc.symm.trans h
  exact (hquiet hs).2.2

theorem at_session (hvalid : boot_flags_valid D.dfu.boot_flags = true)
    (hdone : D.dfu.state = DFU_STATE_DONE → D.dfu.boot_flags.fw_crc_ok ≠ 0)
    (hsince : D.since ≠ some ⟨false, false⟩) : D.Served :=
  ⟨fun _ => hvalid, fun _ _ => hdone, fun h => absurd h hsince, fun h => absurd h hsince,
    fun h => absurd h hsince, fun _ _ => hsince⟩

theorem at_app {sector : Nat} (hpc : D.pc = .app sector)
    (hvalid : boot_flags_valid D.dfu.boot_flags = true)
    (hcrc : D.since = some ⟨false, false⟩ → D.dfu.boot_flags.fw_crc_ok ≠ 0) : D.Served :=
  ⟨fun _ => hvalid, fun _ h => BootPc.noConfusion (hpc.symm.trans h), fun hs _ => hcrc hs,
    fun _ _ h => absurd hpc (h sector), fun _ _ h => BootPc.noConfusion (hpc.symm.trans h),
    fun _ h => BootPc.noConfusion (hpc.symm.trans h)⟩

theorem bootloader_init (hD : D.Served) (hpc : D.pc = .reset) (io : BootIo) :
    (D.bootloader_init io).Served := by
  obtain ⟨forced, checked, ok, hcold, hflags, -, hsince, -, -⟩ := D.bootloader_init_spec io
  have hinit := boot_flags_init_valid D.dfu.boot_flags
  -- a pass that leaves the record as it is neither forces an update nor finds the slot invalid
  have hrecord : (D.bootloader_init io).since = some ⟨false, false⟩ →
      D.since = some ⟨false, false⟩ ∧ forced = false ∧ (checked && !ok) = false := by
    intro h
    rw [hsince] at h
    obtain ⟨⟨requested, failed⟩, hs, h⟩ := Option.map_eq_some_iff.mp h
    cases requested <;> cases failed <;> cases forced <;> simp_all
  have hold : D.since = some ⟨false, false⟩ →
      (boot_flags_init D.dfu.boot_flags).dfu_requested ≠ DFU_REQUEST ∧
        (checked = false → (boot_flags_init D.dfu.boot_flags).fw_crc_ok ≠ 0) := by
    intro h
    unfold boot_flags_init at hcold ⊢
    split at hcold
    · rename_i hvalid
      rw [if_pos hvalid]
      exact ⟨hD.request h hvalid fun _ hs => BootPc.noConfusion (hpc.symm.trans hs),
        fun _ => hD.crc_ok h hvalid⟩
    · rename_i hvalid
      rw [if_neg hvalid]
      exact ⟨by decide, fun hc => absurd (hcold rfl) (by rw [hc]; decide)⟩
  refine at_attempt rfl (by rw [hflags]; exact hinit) fun hs => ?_
  obtain ⟨hs, hforced, hok⟩ := hrecord hs
  rw [hflags]
  refine ⟨?_, ?_, by decide⟩
  · cases checked with
    | true =>
      cases ok with
      | true => simp
      | false => cases hok
    | false => exact (hold hs).2 rfl
  · rw [hforced]
    exact (hold hs).1

theorem session_step (hD : D.Served) {retries : Nat} (hpc : D.pc = .session retries) {X : Dfu}
    (hmagic : X.boot_flags.magic = D.dfu.boot_flags.magic)
    (hdone : X.state = DFU_STATE_DONE → X.boot_flags.fw_crc_ok ≠ 0) :
    ({ D with dfu := X } : Device).Served := by
  have hvalid := hD.valid (by rw [hpc]; exact BootPc.noConfusion)
  refine at_session ?_ hdone (hD.session retries hpc)
  unfold boot_flags_valid at hvalid ⊢
  rw [hmagic]
  exact hvalid

/-- Without a reason the device does not enter `dfu_receive`. -/
theorem not_entered (hD : D.Served) {retries : Nat} (hpc : D.pc = .attempt retries)
    (hs : D.since = some ⟨false, false⟩) : D.enters_dfu retries = false := by
  have hvalid := hD.valid (by rw [hpc]; exact BootPc.noConfusion)
  unfold Device.enters_dfu
  rw [decide_eq_false_iff_not]
  rintro (h | h | h)
  · exact hD.attempt hs retries hpc h
  · exact hD.request hs hvalid (fun _ h => BootPc.noConfusion (hpc.symm.trans h)) h
  · exact hD.crc_ok hs hvalid h

theorem step (hD : D.Served) (hok : D.request_retired a) (h : D.step a = some D') : D'.Served := by
  have hvalid : ∀ {pc : BootPc}, D.pc = pc → pc ≠ .reset →
      boot_flags_valid D.dfu.boot_flags = true := fun hpc hne => hD.valid (hpc ▸ hne)
  cases step_move h with
  | bootloader_init hpc => exact hD.bootloader_init hpc _
  | enter_dfu hpc henter =>
    refine at_session (hvalid hpc BootPc.noConfusion) DfuState.noConfusion fun hs => ?_
    exact Bool.noConfusion ((hD.not_entered hpc hs).symm.trans henter)
  | load_app hpc _ =>
    have hv := hvalid hpc BootPc.noConfusion
    exact at_app rfl hv fun hs => hD.crc_ok hs hv
  | session hpc hX =>
    rcases Dfu.step_flags hX with ⟨-, hf⟩ | ⟨hne, hf⟩
    · exact hD.session_step hpc (by rw [hf]) fun _ => by
        rw [hf]
        exact (by decide : (1 : UInt32) ≠ 0)
    · exact hD.session_step hpc (by rw [hf]) fun h => (hne h).elim
  | accepted hpc => exact hD.session_step hpc rfl fun _ => (by decide : (1 : UInt32) ≠ 0)
  | refused hpc => exact hD.session_step hpc rfl DfuState.noConfusion
  | @session_done retries _ hpc hdone =>
    exact at_app rfl (hvalid hpc BootPc.noConfusion) fun _ => hD.committed retries hpc hdone
  | @session_failed retries hpc =>
    exact at_attempt rfl (hvalid hpc BootPc.noConfusion) fun hs =>
      absurd hs (hD.session retries hpc)
  | @confirm sector io hpc =>
    have hv := hvalid hpc BootPc.noConfusion
    unfold Device.confirm
    dsimp only
    split <;> exact at_app hpc hv fun hs => hD.crc_ok hs hv
  | configure hpc =>
    have hv := hvalid hpc BootPc.noConfusion
    exact at_app hpc hv fun hs => hD.crc_ok hs hv
  | dfu_reboot _ =>
    have hsince : D.since.map Since.request ≠ some ⟨false, false⟩ := by
      intro h
      obtain ⟨s, -, h⟩ := Option.map_eq_some_iff.mp h
      cases h
    exact at_reset rfl (fun hs => absurd hs hsince) fun hs => absurd hs hsince
  | reset =>
    refine at_reset rfl (fun hs hv => ?_) fun hs hv => ?_
    · rcases hok with hcold | ⟨rfl, -⟩
      · exact Bool.noConfusion (hcold.symm.trans hv)
      · exact hD.crc_ok hs hv
    · rcases hok with hcold | ⟨rfl, hreq⟩
      · exact Bool.noConfusion (hcold.symm.trans hv)
      · exact hreq hs
  | corrupt hpc =>
    exact at_reset hpc hD.crc_ok fun hs hv =>
      hD.request hs hv fun _ h => BootPc.noConfusion (hpc.symm.trans h)

end Served

/-- A slot on trial, below the limit of attempts, is kept and its boot counted. -/
theorem bootloader_init_trial (D : Device) (io : BootIo) (hread : io.meta_read = none)
    (htrial : (wdt_meta_decode (D.dfu.emmc EMMC_SECTOR_METADATA)).app_slot_trial ≠ 0)
    (hcount : (wdt_meta_decode (D.dfu.emmc EMMC_SECTOR_METADATA)).trial_boot_count + 1 <
      APP_SLOT_TRIAL_MAX_ATTEMPTS)
    (hpolicy : (wdt_meta_decode (D.dfu.emmc EMMC_SECTOR_METADATA)).count_reset.policy_action =
      .nothing) :
    (D.bootloader_init io).dfu.wdt_meta.active_app_slot =
        (wdt_meta_decode (D.dfu.emmc EMMC_SECTOR_METADATA)).active_app_slot ∧
      (D.bootloader_init io).dfu.wdt_meta.trial_boot_count =
        (wdt_meta_decode (D.dfu.emmc EMMC_SECTOR_METADATA)).trial_boot_count + 1 := by
  have hmeta : (D.read_state io).dfu.wdt_meta =
      wdt_meta_decode (D.dfu.emmc EMMC_SECTOR_METADATA) := by
    unfold read_state wdt_meta_read
    rw [hread]
    rfl
  generalize wdt_meta_decode (D.dfu.emmc EMMC_SECTOR_METADATA) = m at *
  have hcounted : m.count_reset.active_app_slot = m.active_app_slot ∧
      m.count_reset.trial_boot_count = m.trial_boot_count + 1 := by
    unfold WdtMeta.count_reset trial_resolution
    rw [if_pos htrial]
    dsimp only
    rw [if_neg (UInt32.not_le.mpr hcount)]
    exact ⟨rfl, rfl⟩
  unfold bootloader_init
  dsimp only
  rw [hmeta]
  unfold policy
  dsimp only [set_meta]
  rw [hpolicy]
  dsimp only
  split <;> exact hcounted

end Device

/-- While no warm reset finds the request of a session that has returned `E_OK`: the device enters
`dfu_receive` only if since then there was a request or the active slot failed its validation. Without
either, the next pass boots the active slot; on trial, its boot is counted. -/
theorem dfu_request_served (D₀ D : Device) (hpc : D₀.pc = .reset) (hsince : D₀.since = none)
    (hr : Reach Device.step Device.request_retired D₀ D) :
    (∀ retries, D.pc = .session retries → D.since ≠ some ⟨false, false⟩) ∧
    (D.since = some ⟨false, false⟩ → ∀ retries crc ctx, D.pc = .attempt retries →
      D.bootloader_execute retries crc ctx = D.load_app) ∧
    (D.pc = .reset → ∀ io, io.meta_read = none →
      (wdt_meta_decode (D.dfu.emmc EMMC_SECTOR_METADATA)).app_slot_trial ≠ 0 →
      (wdt_meta_decode (D.dfu.emmc EMMC_SECTOR_METADATA)).trial_boot_count + 1 <
        APP_SLOT_TRIAL_MAX_ATTEMPTS →
      (wdt_meta_decode (D.dfu.emmc EMMC_SECTOR_METADATA)).count_reset.policy_action = .nothing →
      (D.bootloader_init io).dfu.wdt_meta.active_app_slot =
          (wdt_meta_decode (D.dfu.emmc EMMC_SECTOR_METADATA)).active_app_slot ∧
        (D.bootloader_init io).dfu.wdt_meta.trial_boot_count =
          (wdt_meta_decode (D.dfu.emmc EMMC_SECTOR_METADATA)).trial_boot_count + 1) := by
  have hinv : D.Served := by
    refine hr.invariant ?_ fun s s' a hs hok h => hs.step hok h
    have hquiet : D₀.since ≠ some ⟨false, false⟩ := by simp [hsince]
    exact .at_reset hpc (fun h => absurd h hquiet) fun h => absurd h hquiet
  refine ⟨hinv.session, fun hs retries crc ctx hat => ?_, fun _ io => D.bootloader_init_trial io⟩
  unfold Device.bootloader_execute
  rw [hinv.not_entered hat hs, if_neg Bool.false_ne_true]

/-- The packets of an update, and its commit. -/
def session_run (data : DFU_Packet) : List DeviceAction :=
  [.session (.packet one_byte_start none), .session (.packet data none),
    .session (.packet (zero_packet CMD_FINISH 1) none), .session (.commit none), .session_done none]

/-- An empty card. -/
def device_blank : Device := { device_cold with dfu := dfu_fresh }

/-- The first update of an empty card, a warm reset, and the begin of the next pass. -/
def first_update : List DeviceAction :=
  [.bootloader_init .fine, .bootloader_execute 0 0] ++ session_run one_byte_data ++
    [.reset { magic := BOOT_FLAGS_MAGIC, reset_reason := RESET_REASON_COLD, dfu_requested := 0,
              fw_crc_ok := 1 } dfu_blank (fun _ => 0), .bootloader_init .fine]

theorem dfu_request_served_first_update :
    ∃ D, execute Device.step Device.request_retired device_blank first_update = some D ∧
      D.bootloader_execute NUM_RETRIES 0 0 = D.load_app := by
  have hrun : (execute Device.step Device.request_retired device_blank first_update).map
      (fun D => (D.pc, D.since)) = some (.attempt NUM_RETRIES, some ⟨false, false⟩) := by
    decide +kernel
  obtain ⟨D, hD, h⟩ := Option.map_eq_some_iff.mp hrun
  have hserved := dfu_request_served device_blank D rfl rfl (.of_exec _ .start hD)
  exact ⟨D, hD, hserved.2.1 (congrArg Prod.snd h) NUM_RETRIES 0 0 (congrArg Prod.fst h)⟩

/-- An update on request, from the trigger in the app to the jump into the new app. -/
def update_run (data : DFU_Packet) : List DeviceAction :=
  [.dfu_reboot dfu_blank (fun _ => 0), .bootloader_init .fine, .bootloader_execute 0 0] ++
    session_run data

/-- A warm reset of the app that was just flashed, on trial: the request is still there, and the
bootloader waits for another update. -/
theorem dfu_request_stays :
    ((execute Device.step anything device_booted (update_run one_byte_data)).bind fun D =>
      execute Device.step anything D
        [.reset D.dfu.boot_flags dfu_blank (fun _ => 0), .bootloader_init .fine,
          .bootloader_execute 0 0]).map (fun D => (D.pc, D.dfu.wdt_meta.app_slot_trial, D.since)) =
      some (.session NUM_RETRIES, 1, some ⟨false, false⟩) := by
  decide +kernel

end Rpitos
