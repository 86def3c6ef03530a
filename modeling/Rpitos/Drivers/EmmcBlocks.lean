import Rpitos.Drivers.EmmcPio

/-!
# Drivers.EmmcBlocks

What `emmc_read_blocks` and `emmc_write_blocks` of `emmc.c` move: `emmc_blocks_moved`, whichever way
the data has gone. For the boot code they are the card of `Boot.Emmc`: `blocks_read_refines`,
`blocks_written_refines`.

* `adma2_walk_eq`: the controller goes through the buffer in order.
* `xfer_ran`: whatever becomes of a transfer along the table, it has moved the first bytes, and all of
  them if it reports success. PIO writes these again.
-/

namespace Rpitos

open Function (update update_self update_of_ne)
open StatusCode

/-! ## Along the table -/

theorem adma2_walk_lines {T : Adma2Table} {n buf total : Nat} (h : Adma2Lines T n buf total) :
    ∀ {fuel i : Nat}, i < n → n ≤ i + fuel → adma2_walk T fuel i =
      (List.range' i (n - i)).flatMap fun j => List.range' (T j).address.toNat (T j).length
  | 0, i, hi, hfuel => by omega
  | fuel + 1, i, hi, hfuel => by
    rw [adma2_walk, if_pos (h.valid i hi), if_pos (h.tran i hi)]
    dsimp only
    by_cases hlast : i + 1 = n
    · rw [if_pos ((h.last i hi).mpr hlast), show n - i = 1 by omega, List.range'_one,
        List.flatMap_singleton]
    · rw [if_neg (mt (h.last i hi).mp hlast), adma2_walk_lines h (by omega) (by omega),
        show n - i = n - (i + 1) + 1 by omega, List.range'_succ, List.flatMap_cons]

/-- The lines send the controller through the buffer in order. -/
theorem adma2_walk_eq {T : Adma2Table} {n buf total : Nat} (h : Adma2Lines T n buf total)
    (hn : 0 < n) (hmax : n ≤ ADMA2_MAX_DESCRIPTORS) :
    adma2_walk T ADMA2_MAX_DESCRIPTORS 0 = List.range' buf total := by
  have hpoints := h.tiles.points
  rw [Adma2Table.lines, List.flatMap_map, Nat.add_sub_cancel_left, List.range_eq_range'] at hpoints
  rw [adma2_walk_lines h hn (by omega), Nat.sub_zero]
  exact hpoints

theorem addrs_getD (buf : Nat) {total k : Nat} (hk : k < total) :
    (List.range' buf total).getD k 0 = buf + k := by
  rw [List.getD_eq_getElem?_getD, List.getElem?_range' hk, Nat.one_mul]
  rfl

theorem dma_to_ram_eq (card : Emmc) (sector buf : Nat) (ram : Nat → UInt8) {total : Nat} :
    ∀ {k : Nat}, k ≤ total → dma_to_ram card sector (List.range' buf total) ram k =
      copy_bytes ram buf (fun i => card (sector + i / SECTOR_SIZE) (i % SECTOR_SIZE)) k
  | 0, _ => rfl
  | k + 1, hk => by
    rw [dma_to_ram, copy_bytes, addrs_getD buf hk, dma_to_ram_eq card sector buf ram (by omega)]

theorem dma_to_card_apply (ram : Nat → UInt8) (sector buf : Nat) (card : Emmc) {total k : Nat}
    (hk : k ≤ total) {s i : Nat} (hi : i < SECTOR_SIZE) :
    dma_to_card ram sector (List.range' buf total) card k s i =
      if sector ≤ s ∧ SECTOR_SIZE * (s - sector) + i < k then
        ram (buf + SECTOR_SIZE * (s - sector) + i) else card s i := by
  induction k with
  | zero => rw [dma_to_card, if_neg (by omega)]
  | succ k ih =>
    rw [dma_to_card, addrs_getD buf hk]
    unfold SECTOR_SIZE at hi ih ⊢
    by_cases hs : s = sector + k / 512
    · subst hs
      rw [update_self]
      by_cases hpos : i = k % 512
      · -- this is byte `k`
        subst hpos
        rw [update_self, if_pos (by omega)]
        exact congrArg ram (by omega)
      · rw [update_of_ne hpos, ih (by omega)]
        exact if_congr (by omega) rfl rfl
    · rw [update_of_ne hs, ih (by omega)]
      exact if_congr (by omega) rfl rfl

namespace EmmcHost

/-- The first `k` bytes have been moved along these addresses. -/
structure DmaRan (H H' : EmmcHost) (write : Bool) (sector : Nat) (addrs : List Nat) (k : Nat) :
    Prop where
  is_high_capacity : H'.is_high_capacity = H.is_high_capacity
  ram : H'.ram = if write then H.ram else dma_to_ram H.card sector addrs H.ram k
  card : H'.card = if write then dma_to_card H.ram sector addrs H.card k else H.card

section Ran

variable {H K K' : EmmcHost} {write : Bool} {sector : Nat} {addrs : List Nat} {k : Nat}

theorem DmaRan.waited (h : DmaRan H K write sector addrs k) (hw : Waited K K') :
    DmaRan H K' write sector addrs k := by
  unfold Waited at hw
  rw [hw]
  exact ⟨h.is_high_capacity, h.ram, h.card⟩

/-- Nothing has been moved. -/
theorem DmaRan.none (H : EmmcHost) (write : Bool) (sector : Nat) (addrs : List Nat) :
    DmaRan H H write sector addrs 0 := by
  refine ⟨rfl, ?_, ?_⟩
  · cases write <;> rfl
  · cases write <;> rfl

/-- The controller moves the first bytes, and raises `DATA_DONE` for all of them only. -/
theorem dma_ran (H : EmmcHost) (write : Bool) (sector blocks : Nat) {addrs : List Nat}
    (haddrs : adma2_walk H.s_adma2_table ADMA2_MAX_DESCRIPTORS 0 = addrs)
    (hdone : H.INTERRUPT .DATA_DONE = false) :
    ∃ k ≤ SECTOR_SIZE * blocks, k ≤ addrs.length ∧
      DmaRan H (H.dma write sector blocks) write sector addrs k ∧
      ((H.dma write sector blocks).INTERRUPT .DATA_DONE = true → k = SECTOR_SIZE * blocks) := by
  cases hfails : H.dma_fails H.dmas with
  | none =>
    refine ⟨min (SECTOR_SIZE * blocks) addrs.length, by omega, by omega, ?_, ?_⟩
    · unfold dma
      rw [haddrs]
      dsimp only
      rw [hfails]
      split <;> cases write <;> exact ⟨rfl, rfl, rfl⟩
    · intro h
      by_cases hall : SECTOR_SIZE * blocks ≤ addrs.length
      · exact Nat.min_eq_left hall
      · unfold dma at h
        dsimp only at h
        rw [haddrs, if_neg fun hdone => hall hdone.2] at h
        cases write <;> exact absurd (h.symm.trans hdone) nofun
  | some n =>
    refine ⟨min n (min (SECTOR_SIZE * blocks) addrs.length), by omega, by omega, ?_, ?_⟩
    · unfold dma
      rw [haddrs]
      dsimp only
      rw [hfails]
      split <;> cases write <;> exact ⟨rfl, rfl, rfl⟩
    · intro h
      unfold dma at h
      dsimp only at h
      rw [hfails, if_neg fun hdone => nomatch hdone.1] at h
      cases write <;> exact absurd (h.symm.trans hdone) nofun

end Ran

theorem issue_dma {cmd : UInt32} (hdata : cmd &&& CMD_ISDATA ≠ 0) (hdma : cmd &&& TM_DMA_EN ≠ 0)
    (H : EmmcHost) : H.issue cmd =
      (H.raise .CMD_DONE).dma (decide (cmd &&& TM_DAT_DIR_RD = 0)) H.addressed
        (H.BLKSIZECNT >>> 16).toNat := by
  unfold issue
  dsimp only
  rw [if_neg hdata, if_pos hdma]
  rfl

/-- The command has been issued along a table that covers the buffer. -/
theorem issued_dma {H : EmmcHost} {cmd : UInt32} (hdata : cmd &&& CMD_ISDATA ≠ 0)
    (hdma : cmd &&& TM_DMA_EN ≠ 0) {write : Bool}
    (hwrite : decide (cmd &&& TM_DAT_DIR_RD = 0) = write) {arg : UInt32} {sector blocks : Nat}
    (hblocks : (H.BLKSIZECNT >>> 16).toNat = blocks)
    (hsector : (if H.is_high_capacity then arg.toNat else arg.toNat / SECTOR_SIZE) = sector)
    {addrs : List Nat} (haddrs : adma2_walk H.s_adma2_table ADMA2_MAX_DESCRIPTORS 0 = addrs) :
    ∃ k ≤ SECTOR_SIZE * blocks, k ≤ addrs.length ∧
      DmaRan H (H.issued cmd arg) write sector addrs k ∧
      ((H.issued cmd arg).INTERRUPT .DATA_DONE = true → k = SECTOR_SIZE * blocks) := by
  unfold issued
  rw [issue_dma hdata hdma, hwrite]
  dsimp only [raise, addressed]
  rw [hblocks, hsector]
  obtain ⟨k, hk, hlen, hran, hdone⟩ := dma_ran { H with
    waits := H.waits + 1
    INTERRUPT := update (fun _ => false) .CMD_DONE true
    ARG1 := arg } write sector blocks haddrs rfl
  exact ⟨k, hk, hlen, ⟨hran.is_high_capacity, hran.ram, hran.card⟩, hdone⟩

section Xfer

variable {H : EmmcHost} {cmd sector buf count : UInt32} {write : Bool} {addrs : List Nat}

/-- Whatever becomes of the transfer, it has moved the first bytes; after a success, all of them. -/
theorem xfer_table_ran (hdata : (cmd ||| TM_DMA_EN) &&& CMD_ISDATA ≠ 0)
    (hdma : (cmd ||| TM_DMA_EN) &&& TM_DMA_EN ≠ 0)
    (hwrite : decide ((cmd ||| TM_DMA_EN) &&& TM_DAT_DIR_RD = 0) = write)
    (hresp : (cmd ||| TM_DMA_EN) &&& CMD_RESP_48B = CMD_RESP_48) (hcount : 0 < count.toNat)
    (haddr : H.Addressable sector.toNat count.toNat)
    (haddrs : adma2_walk H.s_adma2_table ADMA2_MAX_DESCRIPTORS 0 = addrs) :
    ∃ k ≤ SECTOR_SIZE * (count.toNat % 65536), k ≤ addrs.length ∧
      DmaRan H (H.xfer_table cmd sector count write).2 write sector.toNat addrs k ∧
      ((H.xfer_table cmd sector count write).1 = E_OK →
        k = SECTOR_SIZE * (count.toNat % 65536)) := by
  obtain ⟨k, hk, hlen, hran, hdone⟩ := issued_dma (H := H.set_blocks count)
    hdata hdma hwrite (set_blocks_count H count) (sector_arg_eq (H := H) haddr hcount) haddrs
  replace hran : DmaRan H ((H.set_blocks count).issued (cmd ||| TM_DMA_EN) (H.sector_arg sector))
      write sector.toNat addrs k := ⟨hran.is_high_capacity, hran.ram, hran.card⟩
  unfold xfer_table
  dsimp only
  by_cases hsend : ((H.set_blocks count).emmc_send_command (cmd ||| TM_DMA_EN)
      (H.sector_arg sector)).1 = E_OK
  · have hsent := send_command_ok hresp hsend
    refine ⟨k, hk, hlen, ?_, fun hok => ?_⟩
    · refine or_return_keeps (P := fun K => DmaRan H K write sector.toNat addrs k) ?_ ?_
      · rw [hsent]
        exact hran.waited rfl
      · intro K hK
        refine or_return_keeps (P := fun K => DmaRan H K write sector.toNat addrs k)
          (hK.waited (wait_interrupt_waited ..)) fun K hK => ?_
        cases write with
        | false => exact hK
        | true =>
          exact or_return_keeps (P := fun K => DmaRan H K true sector.toNat addrs k)
            (hK.waited rfl) fun K hK => hK
    · obtain ⟨-, hnext⟩ := or_return_ok hok nofun
      rw [hnext] at hok
      obtain ⟨hwait, -⟩ := or_return_it_ok hok
      have hflag := (wait_interrupt_ok hwait).1
      rw [hsent] at hflag
      exact hdone hflag
  · -- the command fails, but it may have been issued
    unfold or_return
    rw [if_neg hsend]
    obtain hnot | hissued := send_command_waited hresp (H.set_blocks count) (H.sector_arg sector)
    · have hnone := DmaRan.none H write sector.toNat addrs
      have hset : DmaRan H (H.set_blocks count) write sector.toNat addrs 0 :=
        ⟨rfl, hnone.ram, hnone.card⟩
      exact ⟨0, Nat.zero_le _, Nat.zero_le _, hset.waited hnot, nofun⟩
    · exact ⟨k, hk, hlen, hran.waited hissued, nofun⟩

variable (cmd write) in
/-- A transfer of a buffer: the first bytes have been moved, and all of them after a success. -/
theorem xfer_ran (hdata : (cmd ||| TM_DMA_EN) &&& CMD_ISDATA ≠ 0)
    (hdma : (cmd ||| TM_DMA_EN) &&& TM_DMA_EN ≠ 0)
    (hwrite : decide ((cmd ||| TM_DMA_EN) &&& TM_DAT_DIR_RD = 0) = write)
    (hresp : (cmd ||| TM_DMA_EN) &&& CMD_RESP_48B = CMD_RESP_48) (hcount : 0 < count.toNat)
    (hlt : count.toNat < 2 ^ 23) (hbuf : buf.toNat + SECTOR_SIZE * count.toNat ≤ 2 ^ 32)
    (haddr : H.Addressable sector.toNat count.toNat) :
    ∃ k ≤ SECTOR_SIZE * count.toNat,
      DmaRan H (H.emmc_xfer_adma2 cmd sector buf count write).2 write sector.toNat
        (List.range' buf.toNat (SECTOR_SIZE * count.toNat)) k ∧
      ((H.emmc_xfer_adma2 cmd sector buf count write).1 = E_OK →
        k = SECTOR_SIZE * count.toNat) := by
  have hbytes : (count * 512).toNat = SECTOR_SIZE * count.toNat := by
    rw [UInt32.toNat_mul]
    show count.toNat * 512 % 2 ^ 32 = 512 * count.toNat
    omega
  have hpos : 0 < SECTOR_SIZE * count.toNat := Nat.mul_pos (by decide) hcount
  obtain ⟨n, T, htable, hlines, hzero⟩ := adma2_tiles H.s_adma2_table buf (count * 512)
    (by rwa [hbytes]) (by rwa [hbytes])
  rw [hbytes] at hlines hzero
  unfold emmc_xfer_adma2
  rw [htable]
  dsimp only
  by_cases hn : n = 0
  · rw [if_pos hn]
    have hnone := DmaRan.none H write sector.toNat
      (List.range' buf.toNat (SECTOR_SIZE * count.toNat))
    exact ⟨0, Nat.zero_le _, ⟨rfl, hnone.ram, hnone.card⟩, nofun⟩
  · rw [if_neg hn]
    obtain ⟨hmax, hlines⟩ := hlines (by omega)
    -- the table is too small for a count of more than 16 bits
    have hblocks : count.toNat % 65536 = count.toNat := by
      have hfits := mt hzero.mpr hn
      unfold ADMA2_MAX_CHUNK SECTOR_SIZE at hfits
      rw [show ADMA2_MAX_DESCRIPTORS = 130 from rfl] at hfits
      omega
    obtain ⟨k, hk, -, hran, hdone⟩ := xfer_table_ran (H := { H with s_adma2_table := T })
      hdata hdma hwrite hresp hcount haddr (adma2_walk_eq hlines (by omega) hmax)
    rw [hblocks] at hk hdone
    exact ⟨k, hk, ⟨hran.is_high_capacity, hran.ram, hran.card⟩, hdone⟩

end Xfer

section Ends

variable {H K : EmmcHost} {sector buf count k : Nat}

theorem DmaRan.blocks_read
    (h : DmaRan H K false sector (List.range' buf (SECTOR_SIZE * count)) (SECTOR_SIZE * count)) :
    BlocksRead H K sector buf count := by
  refine ⟨h.card, fun a => ?_⟩
  rw [h.ram, if_neg Bool.false_ne_true, dma_to_ram_eq _ _ _ _ (Nat.le_refl _), copy_bytes_apply]

theorem DmaRan.blocks_written
    (h : DmaRan H K true sector (List.range' buf (SECTOR_SIZE * count)) (SECTOR_SIZE * count)) :
    BlocksWritten H K sector buf count := by
  refine ⟨h.ram, fun s i hi => ?_⟩
  rw [h.card, if_pos rfl, dma_to_card_apply _ _ _ _ (Nat.le_refl _) hi]
  unfold SECTOR_SIZE at hi ⊢
  exact if_congr (by omega) rfl rfl

/-- PIO reads again what a DMA transfer that failed has read. -/
theorem DmaRan.read_again {K' : EmmcHost} (hk : k ≤ SECTOR_SIZE * count)
    (h : DmaRan H K false sector (List.range' buf (SECTOR_SIZE * count)) k)
    (hread : BlocksRead K K' sector buf count) : BlocksRead H K' sector buf count := by
  have hcard : K.card = H.card := h.card
  refine ⟨hread.card.trans hcard, fun a => ?_⟩
  rw [hread.ram, hcard]
  by_cases ha : buf ≤ a ∧ a < buf + SECTOR_SIZE * count
  · rw [if_pos ha, if_pos ha]
  · rw [if_neg ha, if_neg ha, h.ram, if_neg Bool.false_ne_true, dma_to_ram_eq _ _ _ _ hk,
      copy_bytes_apply, if_neg (by omega)]

/-- PIO writes again what a DMA transfer that failed has written. -/
theorem DmaRan.write_again {K' : EmmcHost} (hk : k ≤ SECTOR_SIZE * count)
    (h : DmaRan H K true sector (List.range' buf (SECTOR_SIZE * count)) k)
    (hwritten : BlocksWritten K K' sector buf count) : BlocksWritten H K' sector buf count := by
  have hram : K.ram = H.ram := h.ram
  refine ⟨hwritten.ram.trans hram, fun s i hi => ?_⟩
  rw [hwritten.card s i hi, hram]
  by_cases hs : sector ≤ s ∧ s < sector + count
  · rw [if_pos hs, if_pos hs]
  · rw [if_neg hs, if_neg hs, h.card, if_pos rfl, dma_to_card_apply _ _ _ _ hk hi, if_neg ?_]
    unfold SECTOR_SIZE at hi hk ⊢
    omega

end Ends

section Blocks

variable {H : EmmcHost} {sector buf count : UInt32}

/-- DMA, and PIO if it fails. -/
theorem dma_or_pio_ok (write : Bool) {cmd : UInt32} {P : EmmcHost → EmmcHost → Prop}
    {pio : EmmcHost → StatusCode × EmmcHost} (hcmd : cmd = if write then CMD25 else CMD18)
    (hall : ∀ K, DmaRan H K write sector.toNat
      (List.range' buf.toNat (SECTOR_SIZE * count.toNat)) (SECTOR_SIZE * count.toNat) → P H K)
    (hagain : ∀ k ≤ SECTOR_SIZE * count.toNat, ∀ K K', DmaRan H K write sector.toNat
      (List.range' buf.toNat (SECTOR_SIZE * count.toNat)) k → P K K' → P H K')
    (hpio : ∀ K, K.Addressable sector.toNat count.toNat → (pio K).1 = E_OK → P K (pio K).2)
    (hcount : 0 < count.toNat) (hlt : count.toNat < 2 ^ 23)
    (hbuf : buf.toNat + SECTOR_SIZE * count.toNat ≤ 2 ^ 32)
    (haddr : H.Addressable sector.toNat count.toNat) {r : StatusCode × EmmcHost}
    (hr : r = if (H.emmc_xfer_adma2 cmd sector buf count write).1 = E_OK then
        (E_OK, (H.emmc_xfer_adma2 cmd sector buf count write).2)
      else pio (H.emmc_xfer_adma2 cmd sector buf count write).2.emmc_reset_cmd_data)
    (hok : r.1 = E_OK) : P H r.2 := by
  obtain ⟨k, hk, hran, hdone⟩ := xfer_ran cmd write (H := H)
    (by rw [hcmd]; cases write <;> decide) (by rw [hcmd]; cases write <;> decide)
    (by rw [hcmd]; cases write <;> decide) (by rw [hcmd]; cases write <;> decide)
    hcount hlt hbuf haddr
  by_cases hxfer : (H.emmc_xfer_adma2 cmd sector buf count write).1 = E_OK
  · rw [hr, if_pos hxfer]
    rw [hdone hxfer] at hran
    exact hall _ hran
  · rw [if_neg hxfer] at hr
    rw [hr] at hok ⊢
    replace hran : DmaRan H (H.emmc_xfer_adma2 cmd sector buf count write).2.emmc_reset_cmd_data
        write sector.toNat (List.range' buf.toNat (SECTOR_SIZE * count.toNat)) k :=
      ⟨hran.is_high_capacity, hran.ram, hran.card⟩
    refine hagain k hk _ _ hran (hpio _ ?_ hok)
    intro hcap
    exact haddr (hran.is_high_capacity.symm.trans hcap)

theorem read_blocks_ok (hlt : count.toNat < 2 ^ 23)
    (hbuf : buf.toNat + SECTOR_SIZE * count.toNat ≤ 2 ^ 32)
    (haddr : H.Addressable sector.toNat count.toNat)
    (hok : (H.emmc_read_blocks sector buf count).1 = E_OK) :
    BlocksRead H (H.emmc_read_blocks sector buf count).2 sector.toNat buf.toNat count.toNat := by
  unfold emmc_read_blocks at hok ⊢
  by_cases hzero : count = 0
  · rw [if_pos hzero, hzero]
    exact .none rfl rfl
  · have hcount : 0 < count.toNat := Nat.pos_of_ne_zero fun h => hzero (UInt32.toNat_inj.mp h)
    rw [if_neg hzero] at hok ⊢
    by_cases hdma : H.s_adma2_supported ∧ count > 1
    · rw [if_pos hdma] at hok ⊢
      exact dma_or_pio_ok false (P := fun H H' =>
        BlocksRead H H' sector.toNat buf.toNat count.toNat) rfl (fun _ h => h.blocks_read)
        (fun _ hk _ _ h => h.read_again hk) (fun _ haddr => pio_read_ok hcount haddr) hcount hlt hbuf
        haddr rfl hok
    · rw [if_neg hdma] at hok ⊢
      exact pio_read_ok hcount haddr hok

theorem write_blocks_ok (hlt : count.toNat < 2 ^ 23)
    (hbuf : buf.toNat + SECTOR_SIZE * count.toNat ≤ 2 ^ 32)
    (haddr : H.Addressable sector.toNat count.toNat)
    (hok : (H.emmc_write_blocks sector buf count).1 = E_OK) :
    BlocksWritten H (H.emmc_write_blocks sector buf count).2 sector.toNat buf.toNat
      count.toNat := by
  unfold emmc_write_blocks at hok ⊢
  by_cases hzero : count = 0
  · rw [if_pos hzero, hzero]
    exact .none rfl rfl
  · have hcount : 0 < count.toNat := Nat.pos_of_ne_zero fun h => hzero (UInt32.toNat_inj.mp h)
    rw [if_neg hzero] at hok ⊢
    by_cases hfloor : sector.toNat < EMMC_FIRMWARE_FLOOR
    · rw [if_pos hfloor] at hok
      exact absurd hok nofun
    · rw [if_neg hfloor] at hok ⊢
      by_cases hdma : H.s_adma2_supported ∧ count > 1
      · rw [if_pos hdma] at hok ⊢
        exact dma_or_pio_ok true (P := fun H H' =>
          BlocksWritten H H' sector.toNat buf.toNat count.toNat) rfl (fun _ h => h.blocks_written)
          (fun _ hk _ _ h => h.write_again hk) (fun _ haddr => pio_write_ok hcount haddr) hcount hlt
          hbuf haddr rfl hok
      · rw [if_neg hdma] at hok ⊢
        exact pio_write_ok hcount haddr hok

end Blocks

end EmmcHost

section Card

variable {H H' : EmmcHost} {sector buf count : Nat}

/-- A read that succeeds is one of `emmc_read_to`. -/
theorem blocks_read_refines (h : BlocksRead H H' sector buf count) :
    (E_OK, H'.ram) = emmc_read_to H.card sector H.ram buf count none := by
  unfold emmc_read_to
  by_cases hzero : count = 0
  · rw [if_pos hzero]
    refine congrArg (Prod.mk E_OK) (funext fun a => ?_)
    rw [h.ram, hzero, if_neg (by omega)]
  · rw [if_neg hzero]
    refine congrArg (Prod.mk E_OK) (funext fun a => ?_)
    dsimp only [emmc_read_blocks]
    rw [h.ram]
    by_cases hlow : buf ≤ a
    · rw [if_pos hlow, Nat.add_sub_cancel' hlow]
      exact if_congr (by omega) rfl rfl
    · rw [if_neg hlow, if_neg fun hin => hlow hin.1]

/-- A write of one sector that succeeds is one of `emmc_write_blocks`. -/
theorem blocks_written_refines (h : BlocksWritten H H' sector buf 1)
    (hfloor : EMMC_FIRMWARE_FLOOR ≤ sector) {s i : Nat} (hi : i < SECTOR_SIZE) :
    H'.card s i = (emmc_write_blocks H.card sector (fun i => H.ram (buf + i)) none).2 s i := by
  unfold emmc_write_blocks
  rw [if_neg (by omega), h.card s i hi]
  dsimp only
  by_cases hs : s = sector
  · subst hs
    rw [if_pos (by omega), update_self, clip, if_pos hi, Nat.sub_self, Nat.mul_zero, Nat.add_zero]
  · rw [if_neg (by omega), update_of_ne hs]

end Card

/-- For every card and every controller, whichever waits fail and however far a DMA transfer gets: if
`emmc_read_blocks` succeeds, `buf` holds the `count` sectors in order and nothing else has changed; if
`emmc_write_blocks` succeeds, these sectors hold the buffer and nothing else has changed. -/
theorem emmc_blocks_moved (H : EmmcHost) (sector buf count : UInt32) (hlt : count.toNat < 2 ^ 23)
    (hbuf : buf.toNat + SECTOR_SIZE * count.toNat ≤ 2 ^ 32)
    (haddr : H.Addressable sector.toNat count.toNat) :
    ((H.emmc_read_blocks sector buf count).1 = E_OK →
      BlocksRead H (H.emmc_read_blocks sector buf count).2 sector.toNat buf.toNat count.toNat) ∧
    ((H.emmc_write_blocks sector buf count).1 = E_OK →
      BlocksWritten H (H.emmc_write_blocks sector buf count).2 sector.toNat buf.toNat
        count.toNat) :=
  ⟨EmmcHost.read_blocks_ok hlt hbuf haddr, EmmcHost.write_blocks_ok hlt hbuf haddr⟩

/-- A card of zeros with sector addressing, whose waits do not fail. -/
def host_of_zeros (s_adma2_supported : Bool) (dma_fails : Nat → Option Nat) : EmmcHost where
  is_high_capacity := true
  s_adma2_supported := s_adma2_supported
  s_adma2_table := fun _ => ⟨0, 0⟩
  BLKSIZECNT := 0
  ARG1 := 0
  INTERRUPT := fun _ => false
  transfer := none
  card := fun _ _ => 0
  ram := fun _ => 1
  wait_fails := fun _ => none
  waits := 0
  dma_fails := dma_fails
  dmas := 0

/-- A read and a write of two sectors of the bootloader slot succeed, after so many DMA transfers and
waits each, and have moved them. -/
def MovesTwo (H : EmmcHost) (dmas read_waits write_waits : Nat) : Prop :=
  let r := H.emmc_read_blocks 1064960 0x10000 2
  let w := H.emmc_write_blocks 1064960 0x10000 2
  (r.1 = E_OK ∧ r.2.dmas = dmas ∧ r.2.waits = read_waits ∧ BlocksRead H r.2 1064960 0x10000 2) ∧
    w.1 = E_OK ∧ w.2.dmas = dmas ∧ w.2.waits = write_waits ∧ BlocksWritten H w.2 1064960 0x10000 2

/-- By PIO, along the table, and by PIO behind a transfer along the table that ends after 700 bytes. -/
theorem emmc_blocks_moved_two : MovesTwo (host_of_zeros false fun _ => none) 0 5 6 ∧
    MovesTwo (host_of_zeros true fun _ => none) 1 3 4 ∧
    MovesTwo (host_of_zeros true fun _ => some 700) 1 8 9 := by
  have hmoves : ∀ dma fails dmas read_waits write_waits,
      let r := (host_of_zeros dma fails).emmc_read_blocks 1064960 0x10000 2
      let w := (host_of_zeros dma fails).emmc_write_blocks 1064960 0x10000 2
      (r.1, r.2.dmas, r.2.waits) = (E_OK, dmas, read_waits) →
        (w.1, w.2.dmas, w.2.waits) = (E_OK, dmas, write_waits) →
          MovesTwo (host_of_zeros dma fails) dmas read_waits write_waits := by
    intro dma fails dmas read_waits write_waits r w hr hw
    simp only [Prod.mk.injEq] at hr hw
    obtain ⟨hread, hdmas, hwaits⟩ := hr
    obtain ⟨hwrite, hdmas', hwaits'⟩ := hw
    have hmoved := emmc_blocks_moved (host_of_zeros dma fails) 1064960 0x10000 2 (by decide)
      (by decide) nofun
    exact ⟨⟨hread, hdmas, hwaits, hmoved.1 hread⟩, hwrite, hdmas', hwaits', hmoved.2 hwrite⟩
  exact ⟨hmoves _ _ 0 5 6 (by decide +kernel) (by decide +kernel),
    hmoves _ _ 1 3 4 (by decide +kernel) (by decide +kernel),
    hmoves _ _ 1 8 9 (by decide +kernel) (by decide +kernel)⟩

end Rpitos
