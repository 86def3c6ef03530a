import Rpitos.Boot.Watchdog

/-!
# Boot.MetaCodec

The metadata sector as a format. `meta_codec`: what is written is read back, a sector is adopted
exactly if its magic and its CRC are right, and the read-modify-writes of `wdt_meta_confirm_slot` and
`watchdog_init` change the fields that they are about.
-/

namespace Rpitos

open Function StatusCode

/-- `offsetof(WdtMeta, crc)`. -/
def META_CRC_OFFSET : Nat := 4 * 8

/-- The sector starts with the magic, and its CRC is that of the bytes before it. -/
def HoldsRecord (buf : Sector) : Prop :=
  word_at buf 0 = WDT_META_MAGIC ∧
    word_at buf META_CRC_OFFSET = crc32 (bytes_at buf 0 META_CRC_OFFSET)

def PM_WDOG_MAX_TIMEOUT : UInt32 := 15

inductive WatchdogResetPolicy where
  | FORCE_UPDATE
  | JUMP_SLOT_B
  | ROLLBACK
  deriving DecidableEq, Repr

/-- `(uint32_t)policy`. -/
def WatchdogResetPolicy.toUInt32 : WatchdogResetPolicy → UInt32
  | .FORCE_UPDATE => WATCHDOG_RESET_POLICY_FORCE_UPDATE
  | .JUMP_SLOT_B => 1
  | .ROLLBACK => WATCHDOG_RESET_POLICY_ROLLBACK

/-- What `watchdog_init` reads of its configuration. -/
structure WatchdogConfig where
  timeout_s : UInt32
  policy : WatchdogResetPolicy
  tolerance : Int32
  deriving DecidableEq, Repr

/-- `watchdog_init` with its argument check: the result, the configuration that is left, the shadow
and the card. -/
def watchdog_init_config (E : Emmc) (m : WdtMeta) (config : Option WatchdogConfig)
    (read_fault write_fault : Option StatusCode) :
    StatusCode × Option WatchdogConfig × WdtMeta × Emmc :=
  match config with
  | none => (E_INVALID_ARGS, none, m, E)
  | some config =>
    if config.timeout_s = 0 then (E_INVALID_ARGS, some config, m, E)
    else
      let config := if config.timeout_s > PM_WDOG_MAX_TIMEOUT then
        { config with timeout_s := PM_WDOG_MAX_TIMEOUT } else config
      (E_OK, some config,
        watchdog_init E m config.tolerance config.policy.toUInt32 read_fault write_fault)

section Codec

variable {buf : Sector}

/-- The struct, laid over a buffer, has the bytes of the buffer. -/
theorem words_of_sector (buf : Sector) :
    (WdtMeta.of_sector buf).words.flatMap word_bytes = bytes_at buf 0 META_CRC_OFFSET := by
  simp only [WdtMeta.words, WdtMeta.of_sector, UInt32.toUInt32_toInt32, List.flatMap_cons,
    List.flatMap_nil, word_at, word_bytes_word]
  rfl

theorem compute_crc_of_sector (buf : Sector) :
    wdt_meta_compute_crc (WdtMeta.of_sector buf) = crc32 (bytes_at buf 0 META_CRC_OFFSET) :=
  congrArg crc32 (words_of_sector buf)

theorem decode_of_record (h : HoldsRecord buf) : wdt_meta_decode buf = WdtMeta.of_sector buf := by
  refine if_neg fun hbad => ?_
  rw [compute_crc_of_sector] at hbad
  exact hbad.elim (fun hmagic => hmagic h.1) fun hcrc => hcrc h.2

theorem decode_of_no_record (h : ¬HoldsRecord buf) : wdt_meta_decode buf = wdt_meta_defaults := by
  refine if_pos ?_
  rw [compute_crc_of_sector]
  by_contra hgood
  rw [not_or, not_not, not_not] at hgood
  exact h hgood

end Codec

theorem holds_record_iff (buf : Sector) : HoldsRecord buf ↔
    (WdtMeta.of_sector buf).magic = WDT_META_MAGIC ∧
      (WdtMeta.of_sector buf).crc = wdt_meta_compute_crc (WdtMeta.of_sector buf) := by
  rw [compute_crc_of_sector]
  exact Iff.rfl

theorem sealed_holds_record (m : WdtMeta) : HoldsRecord (clip m.sealed.to_sector) := by
  rw [holds_record_iff, WdtMeta.of_to_sector]
  exact ⟨rfl, (wdt_meta_compute_crc_sealed m).symm⟩

/-- `E'` holds this record, whatever its CRC was, and differs from `E` nowhere else. -/
structure Stores (E E' : Emmc) (r : WdtMeta) : Prop where
  record : HoldsRecord (E' EMMC_SECTOR_METADATA)
  fields : ∃ crc, WdtMeta.of_sector (E' EMMC_SECTOR_METADATA) = { r with crc := crc }
  frame : ∀ s, s ≠ EMMC_SECTOR_METADATA → E' s = E s

section Updates

variable {E : Emmc} {r : WdtMeta}

theorem write_stores (E : Emmc) (hmagic : r.magic = WDT_META_MAGIC) :
    Stores E (wdt_meta_write E r none).2.2 r := by
  refine ⟨?_, ⟨r.sealed.crc, ?_⟩, fun s hs => wdt_meta_write_emmc hs⟩
  · rw [wdt_meta_write_sector]
    exact sealed_holds_record r
  · rw [wdt_meta_write_sector, WdtMeta.of_to_sector]
    show ({ r with magic := WDT_META_MAGIC, crc := r.sealed.crc } : WdtMeta) = _
    rw [← hmagic]

theorem read_of_record (m : WdtMeta) (h : HoldsRecord (E EMMC_SECTOR_METADATA)) :
    wdt_meta_read E m none = (E_OK, WdtMeta.of_sector (E EMMC_SECTOR_METADATA)) :=
  congrArg (Prod.mk E_OK) (decode_of_record h)

theorem confirm_stores (m : WdtMeta) (h : HoldsRecord (E EMMC_SECTOR_METADATA)) :
    Stores E (wdt_meta_confirm_slot E m none none).2.2
      { WdtMeta.of_sector (E EMMC_SECTOR_METADATA) with
        app_slot_trial := 0, trial_boot_count := 0, wdt_reset_count := 0 } := by
  have hmagic := ((holds_record_iff _).mp h).1
  unfold wdt_meta_confirm_slot
  dsimp only
  rw [read_of_record m h, if_neg (by simp)]
  exact write_stores E hmagic

theorem watchdog_init_stores (m : WdtMeta) {config : WatchdogConfig} (hvalid : config.timeout_s ≠ 0)
    (h : HoldsRecord (E EMMC_SECTOR_METADATA)) :
    Stores E (watchdog_init_config E m (some config) none none).2.2.2
      { WdtMeta.of_sector (E EMMC_SECTOR_METADATA) with
        wdt_reset_tolerance := config.tolerance
        wdt_reset_policy := config.policy.toUInt32 } := by
  have hmagic := ((holds_record_iff _).mp h).1
  have hclamped : ∀ c : WatchdogConfig, c.tolerance = config.tolerance → c.policy = config.policy →
      Stores E (watchdog_init E m c.tolerance c.policy.toUInt32 none none).2
        { WdtMeta.of_sector (E EMMC_SECTOR_METADATA) with
          wdt_reset_tolerance := config.tolerance
          wdt_reset_policy := config.policy.toUInt32 } := by
    intro c htolerance hpolicy
    unfold watchdog_init
    dsimp only
    rw [read_of_record m h, if_pos rfl, htolerance, hpolicy]
    exact write_stores E hmagic
  unfold watchdog_init_config
  dsimp only
  rw [if_neg hvalid]
  split
  · exact hclamped _ rfl rfl
  · exact hclamped _ rfl rfl

end Updates

/-- With reads and writes that succeed: what was written is what a later read finds, with the magic and
the CRC set; a sector is adopted if its magic and its CRC are right and otherwise makes the defaults;
and on a stored record `wdt_meta_confirm_slot` and `watchdog_init` change the fields they are about. -/
theorem meta_codec (E : Emmc) (m : WdtMeta) :
    (∀ (r : WdtMeta) (E' : Emmc),
      E' EMMC_SECTOR_METADATA = (wdt_meta_write E r none).2.2 EMMC_SECTOR_METADATA →
        wdt_meta_read E' m none = (E_OK, { r with
          magic := WDT_META_MAGIC
          crc := wdt_meta_compute_crc { r with magic := WDT_META_MAGIC } })) ∧
    (HoldsRecord (E EMMC_SECTOR_METADATA) →
      wdt_meta_read E m none = (E_OK, WdtMeta.of_sector (E EMMC_SECTOR_METADATA))) ∧
    (¬HoldsRecord (E EMMC_SECTOR_METADATA) →
      wdt_meta_read E m none = (E_OK, wdt_meta_defaults)) ∧
    (HoldsRecord (E EMMC_SECTOR_METADATA) →
      Stores E (wdt_meta_confirm_slot E m none none).2.2
        { WdtMeta.of_sector (E EMMC_SECTOR_METADATA) with
          app_slot_trial := 0, trial_boot_count := 0, wdt_reset_count := 0 }) ∧
    ∀ config : WatchdogConfig, config.timeout_s ≠ 0 → HoldsRecord (E EMMC_SECTOR_METADATA) →
      Stores E (watchdog_init_config E m (some config) none none).2.2.2
        { WdtMeta.of_sector (E EMMC_SECTOR_METADATA) with
          wdt_reset_tolerance := config.tolerance
          wdt_reset_policy := config.policy.toUInt32 } := by
  refine ⟨fun r E' hE' => ?_, read_of_record m, fun h => ?_, confirm_stores m,
    fun config hvalid h => watchdog_init_stores m hvalid h⟩
  · unfold wdt_meta_read
    rw [hE', wdt_meta_write_sector, wdt_meta_decode_sealed]
    rfl
  · exact congrArg (Prod.mk E_OK) (decode_of_no_record h)

/-- A card on whose metadata slot B is on trial. -/
def card_on_trial : Emmc := fun _ => clip ({ wdt_meta_defaults with
  active_app_slot := APP_SLOT_B, app_slot_trial := 1 } : WdtMeta).sealed.to_sector

theorem meta_codec_confirm :
    Stores card_on_trial (wdt_meta_confirm_slot card_on_trial wdt_meta_defaults none none).2.2
      { WdtMeta.of_sector (card_on_trial EMMC_SECTOR_METADATA) with
        app_slot_trial := 0, trial_boot_count := 0, wdt_reset_count := 0 } :=
  (meta_codec card_on_trial wdt_meta_defaults).2.2.2.1 (sealed_holds_record _)

end Rpitos
