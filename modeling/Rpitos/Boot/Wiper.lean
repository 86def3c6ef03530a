import Rpitos.Boot.Bootstrap
import Rpitos.Boot.FlashedImage

/-!
# Boot.Wiper

`kmain` of the wiper, and the device behind it. The wiper zeroes both app headers and the metadata,
clears the boot flags, and jumps to the bootloader like the bootstrap. `wiped_never_runs`: until an
update is committed no app is started again, whatever passes, resets and sessions follow, and a pass
goes to a session.
-/

namespace Rpitos

open Function (update update_self update_of_ne)
open StatusCode DfuState

/-! ## `kmain` -/

def wipe_sectors : List Nat := [EMMC_SECTOR_APP_A, EMMC_SECTOR_APP_B, EMMC_SECTOR_METADATA]

def zero_block : Sector := fun _ => 0

/-- The loop over `wipe_sectors`: whether each write said `E_OK`, and the card. -/
def wipe (E : Emmc) (write : Nat → Option ReadError) : List Nat → Bool × Emmc
  | [] => (true, E)
  | sector :: sectors =>
    let r := emmc_write_blocks E sector zero_block ((write sector).map Subtype.val)
    if r.1 ≠ E_OK then (false, r.2) else wipe r.2 write sectors

/-- `bflags`. -/
def BFLAGS_ADDR : UInt32 := 0x88000

/-- `for (i = 0; i < n; i++) bflags[i] = 0`. -/
def clear_bflags (ram : Ram) (n : Nat) : Ram := load_bytes ram BFLAGS_ADDR (fun _ => 0) (4 * n)

/-- What goes wrong: also in the writes. -/
structure WiperIo extends BootstrapIo where
  write : Nat → Option ReadError

/-- How the wiper ends, and the card then. -/
structure WiperRun extends BootstrapRun where
  emmc : Emmc

/-- `kmain`. Behind the flags it is the `kmain` of the bootstrap. -/
def wiper_run (E : Emmc) (header_buf : Sector) (ram : Ram) (io : WiperIo) : WiperRun :=
  if io.init.isSome then ⟨⟨.hangs, ram, 0⟩, E⟩
  else
    let r := wipe E io.write wipe_sectors
    if r.1 then
      ⟨bootstrap_run r.2 header_buf (clear_bflags ram 64) io.toBootstrapIo, r.2⟩
    else ⟨⟨.hangs, ram, 0⟩, r.2⟩

def ram_word (ram : Ram) (addr : UInt32) : UInt32 :=
  word (ram addr) (ram (addr + 1)) (ram (addr + 2)) (ram (addr + 3))

/-- `boot_flags`, in the shared RAM. -/
def ram_flags (ram : Ram) : BootFlags where
  magic := ram_word ram BFLAGS_ADDR
  reset_reason := ram_word ram (BFLAGS_ADDR + 4)
  dfu_requested := ram_word ram (BFLAGS_ADDR + 8)
  fw_crc_ok := ram_word ram (BFLAGS_ADDR + 12)

section Kmain

variable {E E' : Emmc} {write : Nat → Option ReadError} {sectors : List Nat} {s : Nat}

/-- A write that succeeds. -/
theorem wipe_write {sector : Nat} {buf : Sector} {fault : Option ReadError}
    (h : (emmc_write_blocks E sector buf (fault.map Subtype.val)).1 = E_OK) :
    (emmc_write_blocks E sector buf (fault.map Subtype.val)).2 = update E sector (clip buf) := by
  unfold emmc_write_blocks at h ⊢
  split at h
  · cases h
  · rename_i hfloor
    rw [if_neg hfloor]
    cases fault with
    | some e => exact absurd h e.property
    | none => rfl

/-- When all writes succeed, exactly these sectors are zero. -/
theorem wipe_ok (h : wipe E write sectors = (true, E')) :
    (∀ s ∈ sectors, E' s = clip zero_block) ∧ ∀ s, s ∉ sectors → E' s = E s := by
  induction sectors generalizing E with
  | nil =>
    cases h
    exact ⟨(fun s hs => nomatch hs), fun _ _ => rfl⟩
  | cons sector sectors ih =>
    rw [wipe] at h
    split at h
    · cases h
    · rename_i hok
      rw [wipe_write (not_not.mp hok)] at h
      obtain ⟨hzero, hkept⟩ := ih h
      refine ⟨fun s hs => ?_, fun s hs => ?_⟩
      · by_cases hmem : s ∈ sectors
        · exact hzero s hmem
        · obtain rfl := (List.mem_cons.mp hs).resolve_right hmem
          rw [hkept s hmem, update_self]
      · have hne : s ≠ sector := fun heq => hs (by rw [heq]; exact List.mem_cons_self)
        rw [hkept s fun hmem => hs (List.mem_cons_of_mem _ hmem), update_of_ne hne]

theorem clear_bflags_apply (ram : Ram) {i : Nat} (hi : i < 256) :
    clear_bflags ram 64 (BFLAGS_ADDR + UInt32.ofNat i) = 0 := by
  have hoff := (offset_eq BFLAGS_ADDR (BFLAGS_ADDR + UInt32.ofNat i) (by omega)).mp rfl
  unfold clear_bflags
  rw [load_bytes_apply _ _ _ (by decide), hoff, if_pos hi]

theorem ram_word_zero {ram : Ram} {addr : UInt32}
    (h : ∀ i, i < 4 → ram (addr + UInt32.ofNat i) = 0) : ram_word ram addr = 0 := by
  have h0 := h 0 (by decide)
  rw [show UInt32.ofNat 0 = 0 from rfl, UInt32.add_zero] at h0
  unfold ram_word
  rw [h0]
  show word 0 (ram (addr + UInt32.ofNat 1)) (ram (addr + UInt32.ofNat 2))
    (ram (addr + UInt32.ofNat 3)) = 0
  rw [h 1 (by decide), h 2 (by decide), h 3 (by decide)]
  rfl

/-- A jump: the writes have succeeded, and the bootstrap has gone on from there. -/
theorem wiper_run_jumps {header_buf : Sector} {ram : Ram} {io : WiperIo}
    (h : (wiper_run E header_buf ram io).ended = .jumps) : ∃ E',
      wipe E io.write wipe_sectors = (true, E') ∧ wiper_run E header_buf ram io =
        ⟨bootstrap_run E' header_buf (clear_bflags ram 64) io.toBootstrapIo, E'⟩ := by
  unfold wiper_run at h ⊢
  split at h
  · cases h
  · rename_i hinit
    rw [if_neg hinit]
    generalize wipe E io.write wipe_sectors = r at h ⊢
    obtain ⟨ok, E'⟩ := r
    cases ok with
    | true => exact ⟨E', rfl, rfl⟩
    | false => cases h

/-- What the bootloader finds behind a jump. -/
structure Wiped (emmc : Emmc) (flags : BootFlags) : Prop where
  header_a : emmc EMMC_SECTOR_APP_A = clip zero_block
  header_b : emmc EMMC_SECTOR_APP_B = clip zero_block
  metadata : emmc EMMC_SECTOR_METADATA = clip zero_block
  flags : boot_flags_valid flags = false

/-- The load does not get back to the flags when the bootloader fits its region. -/
theorem wiper_wiped (hlen : (slot_header E).fw_length.toNat ≤ BOOTLOADER_REGION_SIZE)
    {header_buf : Sector} {ram : Ram} {io : WiperIo}
    (h : (wiper_run E header_buf ram io).ended = .jumps) :
    Wiped (wiper_run E header_buf ram io).emmc (ram_flags (wiper_run E header_buf ram io).ram) := by
  obtain ⟨E', hwipe, hrun⟩ := wiper_run_jumps h
  obtain ⟨hzero, hkept⟩ := wipe_ok hwipe
  have hheader : slot_header E' = slot_header E := by
    unfold slot_header
    rw [hkept _ (by decide)]
  have hsafe := (bootstrap_safe (by rw [hheader]; exact hlen) header_buf (clear_bflags ram 64)
    io.toBootstrapIo).region
  have hbyte : ∀ i, i < 4 → (bootstrap_run E' header_buf (clear_bflags ram 64)
      io.toBootstrapIo).ram (BFLAGS_ADDR + UInt32.ofNat i) = 0 := by
    intro i hi
    rw [hsafe]
    · exact clear_bflags_apply ram (by omega)
    · interval_cases i <;> decide
  rw [hrun]
  refine ⟨hzero _ (by decide), hzero _ (by decide), hzero _ (by decide), ?_⟩
  have hmagic := ram_word_zero hbyte
  refine decide_eq_false ?_
  show ram_word _ BFLAGS_ADDR ≠ BOOT_FLAGS_MAGIC
  rw [hmagic]
  decide

end Kmain

/-! ## No app to start -/

/-- A header that `boot_validate_app` refuses. -/
def Emmc.Blank (E : Emmc) (sector : Nat) : Prop :=
  (StartPacket.of_buffer (E sector)).version_num ≠ 1 ∨
    (StartPacket.of_buffer (E sector)).fw_length = 0

theorem Emmc.Blank.refused {E : Emmc} {sector : Nat} (h : E.Blank sector) {lost : Nat → Bool}
    (hlost : lost sector = false) (buf : Sector) :
    (boot_validate_app (E.reads_but lost) buf sector).1 = E_CORRUPTED := by
  have hread : E.reads_but lost sector = some (E sector) := by
    unfold Emmc.reads_but
    rw [hlost, if_neg Bool.false_ne_true]
  unfold boot_validate_app
  rw [hread, Option.getD_some]
  exact congrArg Prod.fst (if_pos h)

/-- Off trial, and with no tolerance to exceed, a pass keeps the slot. -/
theorem WdtMeta.pass_settled {m : WdtMeta} (htrial : m.app_slot_trial = 0)
    (htolerance : m.wdt_reset_tolerance < 0) :
    m.pass.active_app_slot = m.active_app_slot ∧ m.pass.wdt_reset_tolerance < 0 := by
  have hpolicy : ¬m.policy_rolls_back := fun h => Int32.not_le.mpr htolerance h.1
  have hactive := (pass_kept hpolicy).1
  have hcount := (count_reset_policy m).1
  refine ⟨hactive.trans ?_, ?_⟩
  · unfold WdtMeta.count_reset trial_resolution
    rw [if_neg (not_not.mpr htrial)]
  · rw [← hcount] at htolerance
    unfold WdtMeta.pass
    cases m.count_reset.policy_action with
    | nothing => exact htolerance
    | force_update => exact htolerance
    | roll_back => exact htolerance

namespace Device

variable {D D' : Device} {a : DeviceAction}

/-- Nothing is committed, a warm reset keeps the flags, and a pass can read the header of the active
slot. -/
def unflashed (D : Device) (a : DeviceAction) : Prop :=
  D.uncommitted a ∧ D.reset_ok a ∧ ∀ io, a = .bootloader_init io →
    io.lost (APP_SLOT_TO_SECTOR D.record.active_app_slot) = false

/-- The active slot is blank and stays active, and the flags do not say that it was found valid,
unless an update is asked for. -/
structure Bare (D : Device) : Prop where
  opened : D.Open
  blank : D.dfu.emmc.Blank (APP_SLOT_TO_SECTOR D.record.active_app_slot)
  settled : D.record.app_slot_trial = 0
  tolerance : D.record.wdt_reset_tolerance < 0
  shadow : D.pc ≠ .reset → D.dfu.wdt_meta.active_app_slot = D.record.active_app_slot
  valid : D.pc ≠ .reset → boot_flags_valid D.dfu.boot_flags = true
  asks : boot_flags_valid D.dfu.boot_flags = true →
    D.dfu.boot_flags.dfu_requested = DFU_REQUEST ∨ D.dfu.boot_flags.fw_crc_ok = 0
  no_app : ∀ sector, D.pc ≠ .app sector

namespace Bare

theorem enters (hD : D.Bare) (hpc : D.pc ≠ .reset) (retries : Nat) :
    D.enters_dfu retries = true :=
  decide_eq_true (.inr (hD.asks (hD.valid hpc)))

/-- What a step does to the record. -/
theorem step_settled (hD : D.Bare) (hok : D.uncommitted a) (h : D.step a = some D') :
    D'.record.active_app_slot = D.record.active_app_slot ∧ D'.record.app_slot_trial = 0 ∧
      D'.record.wdt_reset_tolerance < 0 := by
  obtain ⟨hrecord, -⟩ := step_record hD.opened hok h
  generalize D'.record = m at hrecord ⊢
  cases hrecord with
  | kept _ => exact ⟨rfl, hD.settled, hD.tolerance⟩
  | pass =>
    obtain ⟨hactive, htolerance⟩ := D.record.pass_settled hD.settled hD.tolerance
    exact ⟨hactive, pass_off_trial hD.settled, htolerance⟩
  | confirm =>
    cases step_move h with
    | confirm hpc => exact (hD.no_app _ hpc).elim
  | configure =>
    cases step_move h with
    | configure hpc => exact (hD.no_app _ hpc).elim

/-- A pass that validates finds nothing, and one that does not keeps what the flags say. -/
theorem pass_asks (hD : D.Bare) {io : BootIo} (hread : io.meta_read = none)
    (hlost : io.lost (APP_SLOT_TO_SECTOR D.record.active_app_slot) = false) :
    (D.bootloader_init io).dfu.boot_flags.dfu_requested = DFU_REQUEST ∨
      (D.bootloader_init io).dfu.boot_flags.fw_crc_ok = 0 := by
  have hmeta : (D.read_state io).dfu.wdt_meta = D.record := by
    unfold read_state set_meta set_flags wdt_meta_read
    rw [hread]
    rfl
  obtain ⟨hpass, hemmc⟩ := (D.read_state io).policy_pass D.record
  obtain ⟨forced, hflags, -⟩ := ((D.read_state io).set_meta D.record.count_reset).policy_spec
  unfold bootloader_init
  dsimp only
  rw [hmeta]
  generalize ((D.read_state io).set_meta D.record.count_reset).policy = D₂ at hpass hemmc hflags ⊢
  split
  · right
    have hactive : D₂.active_sector = APP_SLOT_TO_SECTOR D.record.active_app_slot := by
      unfold active_sector
      rw [hpass, (D.record.pass_settled hD.settled hD.tolerance).1]
    have hrefused := hD.blank.refused hlost D₂.sector_buf
    show (D₂.validate io.lost).dfu.boot_flags.fw_crc_ok = 0
    unfold validate set_flags
    dsimp only
    rw [hactive, show D₂.dfu.emmc = D.dfu.emmc from hemmc, hrefused, if_neg StatusCode.noConfusion]
  · show D₂.dfu.boot_flags.dfu_requested = _ ∨ D₂.dfu.boot_flags.fw_crc_ok = 0
    rw [hflags]
    have hinit : (boot_flags_init D.dfu.boot_flags).dfu_requested = DFU_REQUEST ∨
        (boot_flags_init D.dfu.boot_flags).fw_crc_ok = 0 := by
      unfold boot_flags_init
      split
      · rename_i hvalid
        exact hD.asks hvalid
      · exact .inr rfl
    cases forced with
    | true => exact .inl rfl
    | false => exact hinit

/-- No session gets into the active slot. -/
theorem step_blank (hD : D.Bare) (hok : D.uncommitted a) (h : D.step a = some D') :
    D'.dfu.emmc.Blank (APP_SLOT_TO_SECTOR D'.record.active_app_slot) := by
  obtain ⟨hactive, -⟩ := hD.step_settled hok h
  have hshadow := step_shadow h hok hD.opened hD.shadow
  have htarget : ∀ retries, D'.pc = .session retries → D'.dfu.app →
      D'.dfu.wdt_meta.active_app_slot = D.record.active_app_slot := fun retries hpc _ =>
    (hshadow (by rw [hpc]; exact BootPc.noConfusion)).trans hactive
  have hkept : D'.dfu.emmc (APP_SLOT_TO_SECTOR D.record.active_app_slot) =
      D.dfu.emmc (APP_SLOT_TO_SECTOR D.record.active_app_slot) :=
    step_slot h hok hD.opened htarget 0 (by decide)
  rw [hactive]
  unfold Emmc.Blank
  rw [hkept]
  exact hD.blank

theorem step (hD : D.Bare) (hok : D.unflashed a) (h : D.step a = some D') : D'.Bare := by
  obtain ⟨hun, hreset, hlost⟩ := hok
  obtain ⟨-, hopen⟩ := step_record hD.opened hun h
  obtain ⟨-, hsettled, htolerance⟩ := hD.step_settled hun h
  have hvalid : ∀ {pc : BootPc}, D.pc = pc → pc ≠ .reset →
      boot_flags_valid D.dfu.boot_flags = true := fun hpc hne => hD.valid (hpc ▸ hne)
  suffices hflags : (D'.pc ≠ .reset → boot_flags_valid D'.dfu.boot_flags = true) ∧
      (boot_flags_valid D'.dfu.boot_flags = true →
        D'.dfu.boot_flags.dfu_requested = DFU_REQUEST ∨ D'.dfu.boot_flags.fw_crc_ok = 0) ∧
      ∀ sector, D'.pc ≠ .app sector from
    ⟨hopen, hD.step_blank hun h, hsettled, htolerance,
      step_shadow h hun hD.opened hD.shadow, hflags.1, hflags.2.1, hflags.2.2⟩
  cases step_move h with
  | @bootloader_init io _ =>
    refine ⟨fun _ => ?_, fun _ => hD.pass_asks hun.1 (hlost io rfl), fun _ => BootPc.noConfusion⟩
    obtain ⟨_, _, _, -, hflags, -⟩ := D.bootloader_init_spec io
    rw [hflags]
    exact boot_flags_init_valid D.dfu.boot_flags
  | enter_dfu hpc _ =>
    exact ⟨fun _ => hvalid hpc BootPc.noConfusion, hD.asks, fun _ => BootPc.noConfusion⟩
  | @load_app retries _ _ hpc henter =>
    have henters := hD.enters (by rw [hpc]; exact BootPc.noConfusion) retries
    cases henter.symm.trans henters
  | @session retries act X hpc hX =>
    have hkept : X.boot_flags = D.dfu.boot_flags :=
      (Dfu.step_flags hX).elim (fun hdone => absurd hdone.1 (hopen retries hpc).1) And.right
    refine ⟨fun _ => ?_, ?_, fun sector => ?_⟩
    · show boot_flags_valid X.boot_flags = true
      rw [hkept]
      exact hvalid hpc BootPc.noConfusion
    · show boot_flags_valid X.boot_flags = true → X.boot_flags.dfu_requested = _ ∨ _
      rw [hkept]
      exact hD.asks
    · exact hD.no_app sector
  | accepted _ => cases hun
  | refused hpc => exact ⟨fun _ => hvalid hpc BootPc.noConfusion, hD.asks, hD.no_app⟩
  | @session_done retries _ hpc hdone => exact ((hD.opened retries hpc).1 hdone).elim
  | session_failed hpc =>
    exact ⟨fun _ => hvalid hpc BootPc.noConfusion, hD.asks, fun _ => BootPc.noConfusion⟩
  | confirm hpc => exact (hD.no_app _ hpc).elim
  | configure hpc => exact (hD.no_app _ hpc).elim
  | dfu_reboot hpc => exact (hD.no_app _ hpc).elim
  | @reset flags _ _ =>
    refine ⟨fun hpc => absurd rfl hpc, fun hv => ?_, fun _ => BootPc.noConfusion⟩
    rcases hreset with rfl | hcold
    · exact hD.asks hv
    · exact Bool.noConfusion (hcold.symm.trans hv)
  | corrupt _ => exact hun.elim

end Bare

/-- The bootloader behind a wiper that has jumped. -/
theorem bare_of_wiped (hD : Wiped D.dfu.emmc D.dfu.boot_flags) (hpc : D.pc = .reset) : D.Bare := by
  have hrecord : D.record = wdt_meta_defaults := by
    unfold record
    rw [hD.metadata]
    decide
  refine ⟨fun _ h => (nomatch hpc.symm.trans h), ?_, ?_, ?_, fun h => absurd hpc h,
    fun h => absurd hpc h, fun h => Bool.noConfusion (hD.flags.symm.trans h), fun sector h => ?_⟩
  · rw [hrecord]
    left
    show (StartPacket.of_buffer (D.dfu.emmc EMMC_SECTOR_APP_A)).version_num ≠ 1
    rw [hD.header_a]
    decide
  · rw [hrecord]
    rfl
  · rw [hrecord]
    decide
  · cases hpc.symm.trans h

end Device

/-- Behind a wiper that jumps to a bootloader of its region's size: whatever passes, resets and sessions
follow, until one commits no app is started, and `bootloader_execute` goes to a session. -/
theorem wiped_never_runs {E : Emmc} {header_buf : Sector} {ram : Ram} {io : WiperIo} {D₀ D : Device}
    (hlen : (slot_header E).fw_length.toNat ≤ BOOTLOADER_REGION_SIZE)
    (hjump : (wiper_run E header_buf ram io).ended = .jumps) (hpc : D₀.pc = .reset)
    (hemmc : D₀.dfu.emmc = (wiper_run E header_buf ram io).emmc)
    (hflags : D₀.dfu.boot_flags = ram_flags (wiper_run E header_buf ram io).ram)
    (hr : Reach Device.step Device.unflashed D₀ D) :
    (∀ sector, D.pc ≠ .app sector) ∧
    ∀ retries, D.pc = .attempt retries → ∀ crc ctx, ∃ D',
      D.step (.bootloader_execute crc ctx) = some D' ∧ D'.pc = .session retries := by
  have hwiped : Wiped D₀.dfu.emmc D₀.dfu.boot_flags := by
    rw [hemmc, hflags]
    exact wiper_wiped hlen hjump
  have hinv : D.Bare :=
    hr.invariant (Device.bare_of_wiped hwiped hpc) fun s s' a hs hok h => hs.step hok h
  refine ⟨hinv.no_app, fun retries hattempt crc ctx => ?_⟩
  have henters := hinv.enters (by rw [hattempt]; exact BootPc.noConfusion) retries
  refine ⟨D.bootloader_execute retries crc ctx, ?_, ?_⟩
  · simp only [Device.step, hattempt]
  · unfold Device.bootloader_execute
    rw [if_pos henters]

/-- A card with a bootloader of four bytes, and app headers that are not zero. -/
def small_bootloader : Emmc :=
  update (fun _ _ => 1) EMMC_SECTOR_BOOTLOADER
    (buffer_of ([1, 4, crc32 [1, 1, 1, 1]].flatMap word_bytes))

def small_wiped : WiperRun :=
  wiper_run small_bootloader zero_block (fun _ => 0xFF) ⟨⟨none, none, none⟩, fun _ => none⟩

/-- Its bootloader is entered. -/
def device_wiped : Device := { device_blank with
  dfu := { dfu_fresh with emmc := small_wiped.emmc, boot_flags := ram_flags small_wiped.ram } }

/-- The first pass goes to a session. -/
theorem wiped_never_runs_first_pass :
    ∃ D', (device_wiped.bootloader_init .fine).step (.bootloader_execute 0 0) = some D' ∧
      D'.pc = .session NUM_RETRIES := by
  have hlen : (slot_header small_bootloader).fw_length.toNat ≤ BOOTLOADER_REGION_SIZE := by
    decide +kernel
  have hjump : small_wiped.ended = .jumps := by decide +kernel
  have hpass : device_wiped.step (.bootloader_init .fine) =
      some (device_wiped.bootloader_init .fine) := rfl
  have hok : device_wiped.unflashed (.bootloader_init .fine) := by
    refine ⟨⟨rfl, rfl⟩, trivial, fun io h => ?_⟩
    cases h
    rfl
  exact (wiped_never_runs hlen hjump rfl rfl rfl (Reach.start.step hok hpass)).2 NUM_RETRIES rfl 0 0

end Rpitos
