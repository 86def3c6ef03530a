import Rpitos.Boot.Emmc

/-!
# Boot.Watchdog

The persistent metadata of `watchdog.c`: which app slot is active, whether it is on trial, and the
reset counters, in one sector with a magic word and a CRC. `wdt_meta_read_write`: what was written is
what is read back.
-/

namespace Rpitos

open Function StatusCode

def WDT_META_MAGIC : UInt32 := 0xB007DA7A
def APP_SLOT_TRIAL_MAX_ATTEMPTS : UInt32 := 3
def WATCHDOG_RESET_TOLERANCE_INFINITE : Int32 := -1
def WATCHDOG_RESET_POLICY_FORCE_UPDATE : UInt32 := 0
def WATCHDOG_RESET_POLICY_ROLLBACK : UInt32 := 2

structure WdtMeta where
  magic : UInt32
  wdt_reset_count : UInt32
  wdt_reset_tolerance : Int32
  wdt_reset_policy : UInt32
  wdt_reset_reason : UInt32
  active_app_slot : UInt32
  app_slot_trial : UInt32
  trial_boot_count : UInt32
  crc : UInt32
  deriving DecidableEq, Repr

namespace WdtMeta

/-- The fields before `crc`. -/
def words (m : WdtMeta) : List UInt32 :=
  [m.magic, m.wdt_reset_count, m.wdt_reset_tolerance.toUInt32, m.wdt_reset_policy,
   m.wdt_reset_reason, m.active_app_slot, m.app_slot_trial, m.trial_boot_count]

/-- `*(const WdtMeta *)buf`. -/
def of_sector (buf : Sector) : WdtMeta where
  magic := word_at buf (4 * 0)
  wdt_reset_count := word_at buf (4 * 1)
  wdt_reset_tolerance := (word_at buf (4 * 2)).toInt32
  wdt_reset_policy := word_at buf (4 * 3)
  wdt_reset_reason := word_at buf (4 * 4)
  active_app_slot := word_at buf (4 * 5)
  app_slot_trial := word_at buf (4 * 6)
  trial_boot_count := word_at buf (4 * 7)
  crc := word_at buf (4 * 8)

/-- The sector that `wdt_meta_write` fills: zeros behind the struct. -/
def to_sector (m : WdtMeta) : Sector := buffer_of ((m.words ++ [m.crc]).flatMap word_bytes)

theorem word_at_sector (m : WdtMeta) {i : Nat} (h : i ≤ 8) :
    word_at (clip m.to_sector) (4 * i) = (m.words ++ [m.crc]).getD i 0 := by
  rw [word_at_clip _ (by unfold SECTOR_SIZE; omega)]
  exact word_at_words _ i

theorem of_to_sector (m : WdtMeta) : of_sector (clip m.to_sector) = m := by
  have htol : (word_at (clip m.to_sector) (4 * 2)).toInt32 = m.wdt_reset_tolerance := by
    rw [m.word_at_sector (by omega)]
    rfl
  unfold of_sector
  rw [m.word_at_sector (i := 0) (by omega), m.word_at_sector (i := 1) (by omega), htol,
    m.word_at_sector (i := 3) (by omega), m.word_at_sector (i := 4) (by omega),
    m.word_at_sector (i := 5) (by omega), m.word_at_sector (i := 6) (by omega),
    m.word_at_sector (i := 7) (by omega), m.word_at_sector (i := 8) (by omega)]
  rfl

end WdtMeta

/-- The CRC of every field before `crc`. -/
def wdt_meta_compute_crc (m : WdtMeta) : UInt32 := crc32 (m.words.flatMap word_bytes)

/-- `wdt_meta_set_defaults`. -/
def wdt_meta_defaults : WdtMeta where
  magic := WDT_META_MAGIC
  wdt_reset_count := 0
  wdt_reset_tolerance := WATCHDOG_RESET_TOLERANCE_INFINITE
  wdt_reset_policy := 0
  wdt_reset_reason := 0
  active_app_slot := APP_SLOT_A
  app_slot_trial := 0
  trial_boot_count := 0
  crc := 0

/-- The shadow after a read of this sector: defaults when the magic or the CRC is wrong. -/
def wdt_meta_decode (buf : Sector) : WdtMeta :=
  let src := WdtMeta.of_sector buf
  if src.magic ≠ WDT_META_MAGIC ∨ src.crc ≠ wdt_meta_compute_crc src then wdt_meta_defaults else src

/-- `wdt_meta_read`: the shadow `m` is kept when the card reports an error. -/
def wdt_meta_read (E : Emmc) (m : WdtMeta) (fault : Option StatusCode) : StatusCode × WdtMeta :=
  match fault with
  | some e => (e, m)
  | none => (E_OK, wdt_meta_decode (E EMMC_SECTOR_METADATA))

/-- The shadow with its magic and CRC, as it is persisted. -/
def WdtMeta.sealed (m : WdtMeta) : WdtMeta :=
  let m := { m with magic := WDT_META_MAGIC }
  { m with crc := wdt_meta_compute_crc m }

/-- `wdt_meta_write`: the result, the shadow and the card. -/
def wdt_meta_write (E : Emmc) (m : WdtMeta) (fault : Option StatusCode) :
    StatusCode × WdtMeta × Emmc :=
  let r := emmc_write_blocks E EMMC_SECTOR_METADATA m.sealed.to_sector fault
  (r.1, m.sealed, r.2)

/-- Only the metadata sector changes. -/
theorem wdt_meta_write_emmc {E : Emmc} {m : WdtMeta} {f : Option StatusCode} {s : Nat}
    (h : s ≠ EMMC_SECTOR_METADATA) : (wdt_meta_write E m f).2.2 s = E s := by
  unfold wdt_meta_write emmc_write_blocks
  rw [if_neg (by decide)]
  cases f with
  | none => exact update_of_ne h ..
  | some e => rfl

theorem wdt_meta_write_sector (E : Emmc) (m : WdtMeta) :
    (wdt_meta_write E m none).2.2 EMMC_SECTOR_METADATA = clip m.sealed.to_sector := by
  have hwrite : (wdt_meta_write E m none).2.2 =
      update E EMMC_SECTOR_METADATA (clip m.sealed.to_sector) := rfl
  rw [hwrite, update_self]

/-- `wdt_meta_confirm_slot`: the result, the shadow and the card. -/
def wdt_meta_confirm_slot (E : Emmc) (m : WdtMeta) (read_fault write_fault : Option StatusCode) :
    StatusCode × WdtMeta × Emmc :=
  let r := wdt_meta_read E m read_fault
  if r.1 ≠ E_OK then (r.1, r.2, E)
  else wdt_meta_write E { r.2 with
    app_slot_trial := 0, trial_boot_count := 0, wdt_reset_count := 0 } write_fault

/-- What `watchdog_init` does to the metadata: the shadow and the card. -/
def watchdog_init (E : Emmc) (m : WdtMeta) (tolerance : Int32) (policy : UInt32)
    (read_fault write_fault : Option StatusCode) : WdtMeta × Emmc :=
  let r := wdt_meta_read E m read_fault
  if r.1 = E_OK then (wdt_meta_write E { r.2 with
    wdt_reset_tolerance := tolerance, wdt_reset_policy := policy } write_fault).2
  else (r.2, E)

/-- The CRC does not cover itself. -/
theorem wdt_meta_compute_crc_sealed (m : WdtMeta) :
    wdt_meta_compute_crc m.sealed = m.sealed.crc := rfl

/-- What was written is what is read back. -/
theorem wdt_meta_decode_sealed (m : WdtMeta) :
    wdt_meta_decode (clip m.sealed.to_sector) = m.sealed := by
  unfold wdt_meta_decode
  rw [WdtMeta.of_to_sector, if_neg]
  rintro (h | h)
  · exact h rfl
  · exact h (wdt_meta_compute_crc_sealed m).symm

theorem wdt_meta_read_write (E : Emmc) (m m' : WdtMeta) :
    wdt_meta_read (wdt_meta_write E m none).2.2 m' none = (E_OK, m.sealed) := by
  unfold wdt_meta_read
  rw [wdt_meta_write_sector, wdt_meta_decode_sealed]

end Rpitos
