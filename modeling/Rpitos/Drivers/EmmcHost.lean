import Rpitos.Boot.LoadApp
import Rpitos.Drivers.Adma2

/-!
# Drivers.EmmcHost

The transfers of `emmc.c` over a controller with its card. The controller moves `BLKSIZECNT >> 16`
blocks from the addressed sector on: through `DATA` word by word, with `READ_RDY` or `WRITE_RDY` once
for each block, or along the descriptor table when the command has `TM_DMA_EN`. What it raises is
there when the driver waits for it, but any wait may fail, and a DMA transfer may end after any
prefix. `CONTROL0` and `ADMA_ADDRESS`, which select the table, and the time-outs are left out.
-/

namespace Rpitos

open Function (update)
open StatusCode

def CMD_INDEX (x : UInt32) : UInt32 := x <<< 24
def CMD_ISDATA : UInt32 := (1 : UInt32) <<< 21
def CMD_IXCHK_EN : UInt32 := (1 : UInt32) <<< 20
def CMD_CRCCHK_EN : UInt32 := (1 : UInt32) <<< 19
def CMD_RESP_NONE : UInt32 := (0 : UInt32) <<< 16
def CMD_RESP_48 : UInt32 := (2 : UInt32) <<< 16
def CMD_RESP_48B : UInt32 := (3 : UInt32) <<< 16
def TM_MULTI_BLOCK : UInt32 := (1 : UInt32) <<< 5
def TM_DAT_DIR_RD : UInt32 := (1 : UInt32) <<< 4
def TM_AUTO_CMD12 : UInt32 := (1 : UInt32) <<< 2
def TM_BLKCNT_EN : UInt32 := (1 : UInt32) <<< 1
def TM_DMA_EN : UInt32 := (1 : UInt32) <<< 0

def CMD17 : UInt32 :=
  CMD_INDEX 17 ||| CMD_RESP_48 ||| CMD_CRCCHK_EN ||| CMD_IXCHK_EN ||| CMD_ISDATA ||| TM_DAT_DIR_RD

def CMD18 : UInt32 :=
  CMD_INDEX 18 ||| CMD_RESP_48 ||| CMD_CRCCHK_EN ||| CMD_IXCHK_EN ||| CMD_ISDATA |||
    TM_DAT_DIR_RD ||| TM_MULTI_BLOCK ||| TM_BLKCNT_EN ||| TM_AUTO_CMD12

def CMD24 : UInt32 :=
  CMD_INDEX 24 ||| CMD_RESP_48 ||| CMD_CRCCHK_EN ||| CMD_IXCHK_EN ||| CMD_ISDATA

def CMD25 : UInt32 :=
  CMD_INDEX 25 ||| CMD_RESP_48 ||| CMD_CRCCHK_EN ||| CMD_IXCHK_EN ||| CMD_ISDATA |||
    TM_MULTI_BLOCK ||| TM_BLKCNT_EN ||| TM_AUTO_CMD12

/-- The flags of `INTERRUPT` that the driver waits for. -/
inductive IntFlag where
  | CMD_DONE | DATA_DONE | WRITE_RDY | READ_RDY
  deriving DecidableEq, Repr

/-- How a wait fails: an error flag, or no flag in time. -/
inductive WaitFault where
  | error | timeout
  deriving DecidableEq, Repr

/-- A transfer through `DATA`: `pos` words of the block at `sector` have passed, and `blocks` blocks
are left with it. `fifo` collects the words of a block that is written. -/
structure Transfer where
  write : Bool
  sector : Nat
  blocks : Nat
  pos : Nat
  fifo : Sector

/-- The driver's variables, the controller, the card and the memory. The `k`-th wait fails as
`wait_fails k` says, and the `k`-th DMA transfer ends after `dma_fails k` bytes. -/
structure EmmcHost where
  is_high_capacity : Bool
  s_adma2_supported : Bool
  s_adma2_table : Adma2Table
  BLKSIZECNT : UInt32
  ARG1 : UInt32
  INTERRUPT : IntFlag → Bool
  transfer : Option Transfer
  card : Emmc
  ram : Nat → UInt8
  wait_fails : Nat → Option WaitFault
  waits : Nat
  dma_fails : Nat → Option Nat
  dmas : Nat

/-- A word into memory, lowest byte first. -/
def store_word (buf : Sector) (a : Nat) (w : UInt32) : Sector :=
  update (update (update (update buf a w.toUInt8) (a + 1) (w >>> 8).toUInt8)
    (a + 2) (w >>> 16).toUInt8) (a + 3) (w >>> 24).toUInt8

/-! ## The controller -/

/-- The addresses of the lines from `i` on, up to the one with `END`. -/
def adma2_walk (T : Adma2Table) : Nat → Nat → List Nat
  | 0, _ => []
  | fuel + 1, i =>
    if (T i).valid then
      let here := if (T i).tran then List.range' (T i).address.toNat (T i).length else []
      if (T i).last then here else here ++ adma2_walk T fuel (i + 1)
    else []

/-- `k` bytes of the sectors from `sector` on go to these addresses. -/
def dma_to_ram (card : Emmc) (sector : Nat) (addrs : List Nat) (ram : Nat → UInt8) :
    Nat → Nat → UInt8
  | 0 => ram
  | k + 1 => update (dma_to_ram card sector addrs ram k) (addrs.getD k 0)
      (card (sector + k / SECTOR_SIZE) (k % SECTOR_SIZE))

/-- `k` bytes at these addresses go to the sectors from `sector` on. -/
def dma_to_card (ram : Nat → UInt8) (sector : Nat) (addrs : List Nat) (card : Emmc) : Nat → Emmc
  | 0 => card
  | k + 1 =>
    let E := dma_to_card ram sector addrs card k
    update E (sector + k / SECTOR_SIZE)
      (update (E (sector + k / SECTOR_SIZE)) (k % SECTOR_SIZE) (ram (addrs.getD k 0)))

namespace EmmcHost

def raise (H : EmmcHost) (f : IntFlag) : EmmcHost :=
  { H with INTERRUPT := update H.INTERRUPT f true }

/-- A card with sector addressing takes the argument as it is, another one in bytes. -/
def addressed (H : EmmcHost) : Nat :=
  if H.is_high_capacity then H.ARG1.toNat else H.ARG1.toNat / SECTOR_SIZE

/-- The transfer along the descriptor table. It is done when all blocks have been moved. -/
def dma (H : EmmcHost) (write : Bool) (sector blocks : Nat) : EmmcHost :=
  let addrs := adma2_walk H.s_adma2_table ADMA2_MAX_DESCRIPTORS 0
  let len := min (SECTOR_SIZE * blocks) addrs.length
  let moved := match H.dma_fails H.dmas with
    | none => len
    | some k => min k len
  let done := H.dma_fails H.dmas = none ∧ SECTOR_SIZE * blocks ≤ addrs.length
  let H := { H with transfer := none, dmas := H.dmas + 1 }
  let H := if write then { H with card := dma_to_card H.ram sector addrs H.card moved }
    else { H with ram := dma_to_ram H.card sector addrs H.ram moved }
  if done then H.raise .DATA_DONE else H

/-- A write to `CMDTM`. -/
def issue (H : EmmcHost) (cmd : UInt32) : EmmcHost :=
  let H := H.raise .CMD_DONE
  if cmd &&& CMD_ISDATA = 0 then H
  else
    let write := decide (cmd &&& TM_DAT_DIR_RD = 0)
    let blocks := (H.BLKSIZECNT >>> 16).toNat
    if cmd &&& TM_DMA_EN ≠ 0 then H.dma write H.addressed blocks
    else if blocks = 0 then { H with transfer := none }.raise .DATA_DONE
    else { H with transfer := some ⟨write, H.addressed, blocks, 0, fun _ => 0⟩ }.raise
      (if write then .WRITE_RDY else .READ_RDY)

/-- A word of the block has passed. After the last one the next block is ready, or the transfer is
done. -/
def next_word (H : EmmcHost) (t : Transfer) : EmmcHost :=
  if t.pos + 1 < SECTOR_SIZE / 4 then { H with transfer := some { t with pos := t.pos + 1 } }
  else if t.blocks = 1 then { H with transfer := none }.raise .DATA_DONE
  else { H with transfer := some ⟨t.write, t.sector + 1, t.blocks - 1, 0, fun _ => 0⟩ }.raise
    (if t.write then .WRITE_RDY else .READ_RDY)

/-- A read of `DATA`. -/
def read_data (H : EmmcHost) : UInt32 × EmmcHost :=
  match H.transfer with
  | none => (0, H)
  | some t => if t.write then (0, H) else (word_at (H.card t.sector) (4 * t.pos), H.next_word t)

/-- A write to `DATA`. The last word of a block stores it. -/
def write_data (H : EmmcHost) (w : UInt32) : EmmcHost :=
  match H.transfer with
  | none => H
  | some t =>
    if t.write then
      let fifo := store_word t.fifo (4 * t.pos) w
      let H := if t.pos + 1 < SECTOR_SIZE / 4 then H
        else { H with card := update H.card t.sector (clip fifo) }
      H.next_word { t with fifo := fifo }
    else H

/-! ## The driver -/

def emmc_wait_interrupt (H : EmmcHost) (mask : IntFlag) : StatusCode × EmmcHost :=
  match H.wait_fails H.waits with
  | some .error => (E_CMD, { H with waits := H.waits + 1, INTERRUPT := fun _ => false })
  | some .timeout => (E_TIMED_OUT, { H with waits := H.waits + 1 })
  | none =>
    if H.INTERRUPT mask then
      (E_OK, { H with waits := H.waits + 1, INTERRUPT := update H.INTERRUPT mask false })
    else (E_TIMED_OUT, { H with waits := H.waits + 1 })

/-- Nothing but the fault decides how a wait for the status ends. -/
def emmc_wait_status (H : EmmcHost) : StatusCode × EmmcHost :=
  (if H.wait_fails H.waits = none then E_OK else E_TIMED_OUT, { H with waits := H.waits + 1 })

end EmmcHost

/-- `if (r != E_OK) { return e; }`, and what follows it. -/
def or_return (r : StatusCode × EmmcHost) (e : StatusCode)
    (next : EmmcHost → StatusCode × EmmcHost) : StatusCode × EmmcHost :=
  if r.1 = E_OK then next r.2 else (e, r.2)

/-- `if (r != E_OK) { return r; }`, and what follows it. -/
def or_return_it (r : StatusCode × EmmcHost) (next : EmmcHost → StatusCode × EmmcHost) :
    StatusCode × EmmcHost :=
  or_return r r.1 next

namespace EmmcHost

def emmc_send_command (H : EmmcHost) (cmd arg : UInt32) : StatusCode × EmmcHost :=
  or_return H.emmc_wait_status E_TIMED_OUT fun H =>
  or_return (if cmd &&& CMD_RESP_48B = CMD_RESP_48B then H.emmc_wait_status else (E_OK, H))
    E_TIMED_OUT fun H =>
  let H := { H with INTERRUPT := fun _ => false, ARG1 := arg }.issue cmd
  if cmd &&& CMD_RESP_48B = CMD_RESP_NONE then
    { H with INTERRUPT := fun _ => false }.emmc_wait_status
  else
    or_return_it (H.emmc_wait_interrupt .CMD_DONE) fun H =>
    if cmd &&& CMD_RESP_48B = CMD_RESP_48B then
      or_return H.emmc_wait_status E_TIMED_OUT fun H => (E_OK, H)
    else (E_OK, H)

/-- The transfer that hangs is dropped. -/
def emmc_reset_cmd_data (H : EmmcHost) : EmmcHost := { H with transfer := none }

/-- `is_high_capacity ? sector : sector * SECTOR_SIZE`. -/
def sector_arg (H : EmmcHost) (sector : UInt32) : UInt32 :=
  if H.is_high_capacity then sector else sector * 512

/-- `BLKSIZECNT = (count << 16) | SECTOR_SIZE`. -/
def set_blocks (H : EmmcHost) (count : UInt32) : EmmcHost :=
  { H with BLKSIZECNT := (count <<< 16) ||| 512 }

/-- `emmc_xfer_adma2` once the table is filled. -/
def xfer_table (H : EmmcHost) (cmd sector count : UInt32) (is_write : Bool) :
    StatusCode × EmmcHost :=
  let arg := H.sector_arg sector
  or_return ((H.set_blocks count).emmc_send_command (cmd ||| TM_DMA_EN) arg) E_CMD fun H =>
  or_return_it (H.emmc_wait_interrupt .DATA_DONE) fun H =>
  if is_write then or_return H.emmc_wait_status E_TIMED_OUT fun H => (E_OK, H)
  else (E_OK, H)

def emmc_xfer_adma2 (H : EmmcHost) (cmd sector buf count : UInt32) (is_write : Bool) :
    StatusCode × EmmcHost :=
  match emmc_build_adma2_table H.s_adma2_table buf (count * 512) with
  -- an access outside the table: only for no bytes at all
  | none => (E_INVALID_ARGS, H)
  | some (n, s_adma2_table) =>
    let H := { H with s_adma2_table := s_adma2_table }
    if n = 0 then (E_INVALID_ARGS, H) else H.xfer_table cmd sector count is_write

/-- `for (i = 0; i < n; i++) words[base + i] = DATA`. -/
def read_words (words base : Nat) : Nat → EmmcHost → EmmcHost
  | 0, H => H
  | i + 1, H =>
    let r := (read_words words base i H).read_data
    { r.2 with ram := store_word r.2.ram (words + 4 * (base + i)) r.1 }

/-- `for (i = 0; i < n; i++) DATA = words[base + i]`. -/
def write_words (words base : Nat) : Nat → EmmcHost → EmmcHost
  | 0, H => H
  | i + 1, H =>
    let H := write_words words base i H
    H.write_data (word_at H.ram (words + 4 * (base + i)))

/-- The loop over the blocks from `b` on, with a wait before each. -/
def pio_loop (ready : IntFlag) (block : Nat → EmmcHost → EmmcHost) :
    Nat → Nat → EmmcHost → StatusCode × EmmcHost
  | 0, _, H => (E_OK, H)
  | left + 1, b, H =>
    or_return (H.emmc_wait_interrupt ready) E_TIMED_OUT fun H =>
    pio_loop ready block left (b + 1) (block b H)

/-- The PIO transfer of `emmc_read_blocks`, up to the last block. -/
def pio_read_data (H : EmmcHost) (sector buf count : UInt32) : StatusCode × EmmcHost :=
  let arg := H.sector_arg sector
  let words := buf.toNat
  if count = 1 then
    or_return ((H.set_blocks 1).emmc_send_command CMD17 arg) E_CMD fun H =>
    or_return (H.emmc_wait_interrupt .READ_RDY) E_TIMED_OUT fun H =>
    (E_OK, read_words words 0 (SECTOR_SIZE / 4) H)
  else
    or_return ((H.set_blocks count).emmc_send_command CMD18 arg) E_CMD
      (pio_loop .READ_RDY (fun b => read_words words (b * (SECTOR_SIZE / 4)) (SECTOR_SIZE / 4))
        count.toNat 0)

def pio_read (H : EmmcHost) (sector buf count : UInt32) : StatusCode × EmmcHost :=
  or_return_it (H.pio_read_data sector buf count) fun H =>
  or_return (H.emmc_wait_interrupt .DATA_DONE) E_TIMED_OUT fun H => (E_OK, H)

def emmc_read_blocks (H : EmmcHost) (sector buf count : UInt32) : StatusCode × EmmcHost :=
  if count = 0 then (E_OK, H)
  else if H.s_adma2_supported ∧ count > 1 then
    let dma := H.emmc_xfer_adma2 CMD18 sector buf count false
    if dma.1 = E_OK then (E_OK, dma.2)
    else dma.2.emmc_reset_cmd_data.pio_read sector buf count
  else H.pio_read sector buf count

/-- The PIO transfer of `emmc_write_blocks`, up to the last block. -/
def pio_write_data (H : EmmcHost) (sector buf count : UInt32) : StatusCode × EmmcHost :=
  let arg := H.sector_arg sector
  let words := buf.toNat
  if count = 1 then
    or_return ((H.set_blocks 1).emmc_send_command CMD24 arg) E_CMD fun H =>
    or_return (H.emmc_wait_interrupt .WRITE_RDY) E_TIMED_OUT fun H =>
    (E_OK, write_words words 0 (SECTOR_SIZE / 4) H)
  else
    or_return ((H.set_blocks count).emmc_send_command CMD25 arg) E_CMD
      (pio_loop .WRITE_RDY (fun b => write_words words (b * (SECTOR_SIZE / 4)) (SECTOR_SIZE / 4))
        count.toNat 0)

def pio_write (H : EmmcHost) (sector buf count : UInt32) : StatusCode × EmmcHost :=
  or_return_it (H.pio_write_data sector buf count) fun H =>
  or_return (H.emmc_wait_interrupt .DATA_DONE) E_TIMED_OUT fun H =>
  or_return H.emmc_wait_status E_TIMED_OUT fun H => (E_OK, H)

def emmc_write_blocks (H : EmmcHost) (sector buf count : UInt32) : StatusCode × EmmcHost :=
  if count = 0 then (E_OK, H)
  else if sector.toNat < EMMC_FIRMWARE_FLOOR then (E_INVALID_ARGS, H)
  else if H.s_adma2_supported ∧ count > 1 then
    let dma := H.emmc_xfer_adma2 CMD25 sector buf count true
    if dma.1 = E_OK then (E_OK, dma.2)
    else dma.2.emmc_reset_cmd_data.pio_write sector buf count
  else H.pio_write sector buf count

end EmmcHost

end Rpitos
